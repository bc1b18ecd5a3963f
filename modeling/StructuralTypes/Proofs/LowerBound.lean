import StructuralTypes.Proofs.Distribution

/-!
On basic types the meet is the greatest lower bound of the subset relation. The two are decided
by rules of their own, so both halves go by the joint height of the sides: what a meet is made
of is below both sides, and what is below both sides is found among the meets of the branches.
A named type is met whole, and there the second half needs that parameters which are equal to
the same parameters are equal. Every basic type has a branch, or else a list could be below two
lists that do not meet.
-/

namespace StructuralTypes

mutual

/-- Built from primitives, named types, lists, tuples and unions with a branch. Defaults of
parameters are not looked at. -/
def Ty.basic : Ty → Bool
  | .literal _ => false
  | .union parts => !parts.isEmpty && Ty.allBasic parts
  | .resolved shape => shape.basic

def Shape.basic : Shape → Bool
  | .named _ parameters => Parameter.allBasic parameters
  | .function _ _ => false
  | .list element => element.basic
  | .tuple elements => Ty.allBasic elements
  | .dictionary _ => false
  | _ => true

def Parameter.basic : Parameter → Bool
  | ⟨_, ty, _⟩ => ty.basic

def Ty.allBasic : List Ty → Bool
  | [] => true
  | ty :: rest => ty.basic && Ty.allBasic rest

def Parameter.allBasic : List Parameter → Bool
  | [] => true
  | parameter :: rest => parameter.basic && Parameter.allBasic rest

end

mutual

theorem Ty.dictionaryFree_of_basic : ∀ {a : Ty}, a.basic = true → a.dictionaryFree = true
  | .union parts, basic => by
      simp only [Ty.basic, Bool.and_eq_true] at basic
      exact Ty.allDictionaryFree_of_basic basic.2
  | .resolved _, basic => Shape.dictionaryFree_of_basic basic

theorem Shape.dictionaryFree_of_basic : ∀ {s : Shape}, s.basic = true → s.dictionaryFree = true
  | .number, _ => rfl
  | .text, _ => rfl
  | .logic, _ => rfl
  | .void, _ => rfl
  | .named _ _, basic => Parameter.allDictionaryFree_of_basic basic
  | .list _, basic => Ty.dictionaryFree_of_basic basic
  | .tuple _, basic => Ty.allDictionaryFree_of_basic basic

theorem Parameter.dictionaryFree_of_basic : ∀ {p : Parameter}, p.basic = true →
    p.dictionaryFree = true
  | ⟨_, _, _⟩, basic => Ty.dictionaryFree_of_basic basic

theorem Ty.allDictionaryFree_of_basic : ∀ {tys : List Ty}, Ty.allBasic tys = true →
    Ty.allDictionaryFree tys = true
  | [], _ => rfl
  | ty :: rest, basic => by
      simp only [Ty.allBasic, Ty.allDictionaryFree, Bool.and_eq_true] at basic ⊢
      exact ⟨Ty.dictionaryFree_of_basic basic.1, Ty.allDictionaryFree_of_basic basic.2⟩

theorem Parameter.allDictionaryFree_of_basic : ∀ {ps : List Parameter},
    Parameter.allBasic ps = true → Parameter.allDictionaryFree ps = true
  | [], _ => rfl
  | p :: rest, basic => by
      simp only [Parameter.allBasic, Parameter.allDictionaryFree, Bool.and_eq_true] at basic ⊢
      exact ⟨Parameter.dictionaryFree_of_basic basic.1,
        Parameter.allDictionaryFree_of_basic basic.2⟩

end

mutual

theorem Ty.basic_of_mem_branches {branch : Ty} : ∀ {a : Ty}, a.basic = true → branch ∈ a.branches →
    ∃ shape, branch = .resolved shape ∧ shape.basic = true
  | .union parts, basic, member => by
      simp only [Ty.basic, Bool.and_eq_true] at basic
      exact Ty.basic_of_mem_branchesOf basic.2 (Ty.mem_branches_union.mp member)
  | .resolved shape, basic, member => ⟨shape, List.mem_singleton.mp member, basic⟩

theorem Ty.basic_of_mem_branchesOf {branch : Ty} : ∀ {parts : List Ty}, Ty.allBasic parts = true →
    branch ∈ Ty.branchesOf parts → ∃ shape, branch = .resolved shape ∧ shape.basic = true
  | part :: rest, basic, member => by
      simp only [Ty.allBasic, Bool.and_eq_true] at basic
      rcases List.mem_append.mp member with here | there
      · exact Ty.basic_of_mem_branches basic.1 here
      · exact Ty.basic_of_mem_branchesOf basic.2 there

end

theorem Ty.branches_ne_nil_of_basic : ∀ {a : Ty}, a.basic = true → a.branches ≠ []
  | .resolved _, _ => List.cons_ne_nil _ _
  | .union (part :: rest), basic => by
      simp only [Ty.basic, Ty.allBasic, Bool.and_eq_true] at basic
      have first := Ty.branches_ne_nil_of_basic basic.2.1
      simp only [Ty.branches, Ty.branchesOf]
      exact List.append_ne_nil_of_left_ne_nil first _

theorem Ty.ne_literal_of_basic {a : Ty} (basic : a.basic = true) : ∀ v, a ≠ .literal v := by
  rintro v rfl
  cases basic

namespace Reference

theorem typeEqual_of_equal {a b : Ty} (same : a == b) : typeEqual a b = true :=
  (typeEqual_iff a b).mpr ⟨subset_of_equal same, subset_of_equal (BEq.symm same)⟩

theorem ParametersEqual.of_equal {ps rs : List Parameter} (same : ps == rs) :
    ParametersEqual ps rs := by
  refine ((list_equal_iff ps rs).mp same).imp fun p r equal => ?_
  obtain ⟨name, ty, -⟩ := (Parameter.equal_iff p r).mp equal
  exact ⟨name, typeEqual_of_equal ty⟩

theorem ShapeBelow.of_equal {s t : Shape} (same : s == t)
    (other : ∀ entries, s ≠ .dictionary entries) : ShapeBelow s t := by
  cases (@Precision.shape_iff .equality s t).mp same with
  | number => exact .number
  | text => exact .text
  | logic => exact .logic
  | void => exact .void
  | named parameters => exact .named (.of_equal parameters)
  | function parameters result => exact .function (.of_equal parameters) (subset_of_equal result)
  | list element => exact .list (subset_of_equal element)
  | tuple elements =>
      exact .tuple (((list_equal_iff _ _).mp elements).imp fun _ _ equal => subset_of_equal equal)
  | dictionary entries => exact absurd rfl (other _)

theorem ShapeBelow.of_subset {s t : Shape} (basic : s.basic = true)
    (below : subset (.resolved s) (.resolved t) = true) : ShapeBelow s t := by
  rcases (subset_resolved_iff s t).mp below with same | step
  · apply ShapeBelow.of_equal same
    rintro entries rfl
    cases basic
  · exact step

theorem meet_ne_literal {a b ty : Ty} (basicA : a.basic = true) (basicB : b.basic = true)
    (found : meet a b = some ty) : ∀ v, ty ≠ .literal v := by
  rintro v rfl
  have member : Ty.literal v ∈ branchMeets a b := by
    rw [← branches_of_meet found]
    exact List.mem_singleton_self _
  obtain ⟨branch, inside, other, there, pair⟩ := mem_branchMeets.mp member
  obtain ⟨s, rfl, -⟩ := Ty.basic_of_mem_branches basicA inside
  obtain ⟨t, rfl, -⟩ := Ty.basic_of_mem_branches basicB there
  obtain ⟨r, same, -⟩ := (meet_resolved_iff s t _).mp pair
  cases same

variable {n : Nat}

/-- A meet is below both sides, for basic types of joint height below `n`. -/
def LowerBelow (n : Nat) : Prop :=
  ∀ {a b ty : Ty}, a.basic = true → b.basic = true → a.height + b.height < n →
    meet a b = some ty → subset ty a = true ∧ subset ty b = true

theorem LowerBelow.each (ih : LowerBelow n) {as bs tys : List Ty} (basicA : Ty.allBasic as = true)
    (basicB : Ty.allBasic bs = true) (low : Ty.tallest as + Ty.tallest bs < n)
    (meets : MeetsEach as bs tys) :
    List.Forall₂ (fun ty a => subset ty a = true) tys as ∧
      List.Forall₂ (fun ty b => subset ty b = true) tys bs := by
  induction meets with
  | nil => exact ⟨.nil, .nil⟩
  | cons first rest each =>
      simp only [Ty.allBasic, Bool.and_eq_true] at basicA basicB
      simp only [Ty.tallest] at low
      obtain ⟨left, right⟩ := ih basicA.1 basicB.1 (by omega) first
      obtain ⟨lefts, rights⟩ := each basicA.2 basicB.2 (by omega)
      exact ⟨.cons left lefts, .cons right rights⟩

theorem LowerBelow.shapeMeet (ih : LowerBelow n) {s t r : Shape} (basicS : s.basic = true)
    (basicT : t.basic = true) (low : s.height + t.height ≤ n) (meets : ShapeMeet s t r) :
    ShapeBelow r s ∧ ShapeBelow r t := by
  cases meets with
  | number => exact ⟨.number, .number⟩
  | text => exact ⟨.text, .text⟩
  | logic => exact ⟨.logic, .logic⟩
  | void => exact ⟨.void, .void⟩
  | named below => exact ⟨.of_equal (BEq.refl _) nofun, below⟩
  | function parameters result => cases basicS
  | list element =>
      simp only [Shape.height] at low
      obtain ⟨left, right⟩ := ih basicS basicT (by omega) element
      exact ⟨.list left, .list right⟩
  | tuple elements =>
      simp only [Shape.height] at low
      obtain ⟨left, right⟩ := ih.each basicS basicT (by omega) elements
      exact ⟨.tuple left, .tuple right⟩
  | dictionary shared => cases basicS

theorem LowerBelow.branch (ih : LowerBelow n) {a b ty : Ty} (basicA : a.basic = true)
    (basicB : b.basic = true) (low : a.height + b.height ≤ n) (member : ty ∈ branchMeets a b) :
    (∃ branch ∈ a.branches, subset ty branch = true) ∧
      ∃ other ∈ b.branches, subset ty other = true := by
  obtain ⟨branch, inside, other, there, found⟩ := mem_branchMeets.mp member
  have lowBranch := Ty.height_of_mem_branches inside
  have lowOther := Ty.height_of_mem_branches there
  obtain ⟨s, rfl, basicS⟩ := Ty.basic_of_mem_branches basicA inside
  obtain ⟨t, rfl, basicT⟩ := Ty.basic_of_mem_branches basicB there
  obtain ⟨r, rfl, meets⟩ := (meet_resolved_iff s t ty).mp found
  simp only [Ty.height] at lowBranch lowOther
  obtain ⟨left, right⟩ := ih.shapeMeet basicS basicT (by omega) meets
  exact ⟨⟨_, inside, (subset_resolved_iff r s).mpr (.inr left)⟩,
    ⟨_, there, (subset_resolved_iff r t).mpr (.inr right)⟩⟩

theorem lowerBelow (n : Nat) : LowerBelow n := by
  induction n with
  | zero =>
      intro a b ty _ _ low
      exact absurd low (Nat.not_lt_zero _)
  | succ n ih =>
      intro a b ty basicA basicB low found
      have branches : ∀ branch ∈ ty.branches, _ := fun branch member =>
        ih.branch basicA basicB (Nat.le_of_lt_succ low) (branches_of_meet found ▸ member)
      have other := meet_ne_literal basicA basicB found
      constructor
      · rw [subset_iff_branches other (Ty.ne_literal_of_basic basicA)]
        exact fun branch member => (branches branch member).1
      · rw [subset_iff_branches other (Ty.ne_literal_of_basic basicB)]
        exact fun branch member => (branches branch member).2

/-- What is below both sides is below their meet, for sides of joint height below `n`. -/
def GreatestBelow (n : Nat) : Prop :=
  ∀ {a b c : Ty}, a.basic = true → b.basic = true → c.basic = true →
    a.height + b.height < n → subset c a = true → subset c b = true →
    ∃ ty, meet a b = some ty ∧ subset c ty = true

theorem GreatestBelow.each (ih : GreatestBelow n) {as bs cs : List Ty}
    (basicA : Ty.allBasic as = true) (basicB : Ty.allBasic bs = true)
    (basicC : Ty.allBasic cs = true) (low : Ty.tallest as + Ty.tallest bs < n)
    (left : List.Forall₂ (fun c a => subset c a = true) cs as)
    (right : List.Forall₂ (fun c b => subset c b = true) cs bs) :
    ∃ tys, MeetsEach as bs tys ∧ List.Forall₂ (fun c ty => subset c ty = true) cs tys := by
  induction left generalizing bs with
  | nil =>
      cases right
      exact ⟨[], .nil, .nil⟩
  | cons head tail each =>
      cases right with
      | cons other rest =>
          simp only [Ty.allBasic, Bool.and_eq_true] at basicA basicB basicC
          simp only [Ty.tallest] at low
          obtain ⟨ty, found, below⟩ :=
            ih basicA.1 basicB.1 basicC.1 (by omega) head other
          obtain ⟨tys, meets, belows⟩ := each basicA.2 basicB.2 basicC.2 (by omega) rest
          exact ⟨ty :: tys, .cons found meets, .cons below belows⟩

theorem ParametersEqual.join {ps qs rs : List Parameter}
    (freeP : Parameter.allDictionaryFree ps = true) (freeQ : Parameter.allDictionaryFree qs = true)
    (freeR : Parameter.allDictionaryFree rs = true) (left : ParametersEqual qs ps)
    (right : ParametersEqual qs rs) : ParametersEqual ps rs := by
  apply forall₂_compose left.flip right
  intro p inP q inQ r inR one two
  refine ⟨one.1.symm.trans two.1, ?_⟩
  exact typeEqual_trans (Parameter.dictionaryFree_of_mem freeP inP)
    (Parameter.dictionaryFree_of_mem freeQ inQ) (Parameter.dictionaryFree_of_mem freeR inR)
    (typeEqual_symm one.2) two.2

theorem GreatestBelow.shapeMeet (ih : GreatestBelow n) {s t r : Shape} (basicS : s.basic = true)
    (basicT : t.basic = true) (basicR : r.basic = true) (low : s.height + t.height ≤ n)
    (left : ShapeBelow r s) (right : ShapeBelow r t) : ∃ m, ShapeMeet s t m ∧ ShapeBelow r m := by
  cases left with
  | number => cases right; exact ⟨_, .number, .number⟩
  | text => cases right; exact ⟨_, .text, .text⟩
  | logic => cases right; exact ⟨_, .logic, .logic⟩
  | void => cases right; exact ⟨_, .void, .void⟩
  | named one =>
      cases right with
      | named two =>
          -- the first type is kept whole, so its parameters have to equal those of the second
          have freeS := Shape.dictionaryFree_of_basic basicS
          have freeT := Shape.dictionaryFree_of_basic basicT
          have freeR := Shape.dictionaryFree_of_basic basicR
          exact ⟨_, .named (.named (one.join freeS freeR freeT two)), .named one⟩
  | function parameters result => cases basicR
  | list one =>
      cases right with
      | list two =>
          simp only [Shape.height] at low
          obtain ⟨ty, found, below⟩ := ih basicS basicT basicR (by omega) one two
          exact ⟨_, .list found, .list below⟩
  | tuple one =>
      cases right with
      | tuple two =>
          simp only [Shape.height] at low
          obtain ⟨tys, meets, below⟩ := ih.each basicS basicT basicR (by omega) one two
          exact ⟨_, .tuple meets, .tuple below⟩
  | dictionary fields => cases basicR

theorem GreatestBelow.branch (ih : GreatestBelow n) {a b c branch : Ty} (basicA : a.basic = true)
    (basicB : b.basic = true) (basicC : c.basic = true) (low : a.height + b.height ≤ n)
    (left : subset c a = true) (right : subset c b = true) (member : branch ∈ c.branches) :
    ∃ ty ∈ branchMeets a b, subset branch ty = true := by
  have otherC := Ty.ne_literal_of_basic basicC
  obtain ⟨first, inA, belowA⟩ :=
    (subset_iff_branches otherC (Ty.ne_literal_of_basic basicA)).mp left branch member
  obtain ⟨second, inB, belowB⟩ :=
    (subset_iff_branches otherC (Ty.ne_literal_of_basic basicB)).mp right branch member
  have lowA := Ty.height_of_mem_branches inA
  have lowB := Ty.height_of_mem_branches inB
  obtain ⟨s, rfl, basicS⟩ := Ty.basic_of_mem_branches basicA inA
  obtain ⟨t, rfl, basicT⟩ := Ty.basic_of_mem_branches basicB inB
  obtain ⟨r, rfl, basicR⟩ := Ty.basic_of_mem_branches basicC member
  simp only [Ty.height] at lowA lowB
  obtain ⟨m, meets, below⟩ := ih.shapeMeet basicS basicT basicR (by omega)
    (.of_subset basicR belowA) (.of_subset basicR belowB)
  refine ⟨.resolved m, mem_branchMeets.mpr ⟨_, inA, _, inB, ?_⟩, ?_⟩
  · exact (meet_resolved_iff s t _).mpr ⟨m, rfl, meets⟩
  · exact (subset_resolved_iff r m).mpr (.inr below)

theorem greatestBelow (n : Nat) : GreatestBelow n := by
  induction n with
  | zero =>
      intro a b c _ _ _ low
      exact absurd low (Nat.not_lt_zero _)
  | succ n ih =>
      intro a b c basicA basicB basicC low left right
      have each : ∀ branch ∈ c.branches, ∃ ty ∈ branchMeets a b, subset branch ty = true := by
        intro branch member
        exact ih.branch basicA basicB basicC (Nat.le_of_lt_succ low) left right member
      -- `c` has a branch, so some pair of branches meets
      obtain ⟨branch, member⟩ := List.exists_mem_of_ne_nil _ (Ty.branches_ne_nil_of_basic basicC)
      obtain ⟨some, inside, -⟩ := each branch member
      cases found : meet a b with
      | none =>
          rw [(meet_eq_none_iff a b).mp found] at inside
          cases inside
      | some ty =>
          refine ⟨ty, rfl, ?_⟩
          have other := meet_ne_literal basicA basicB found
          rw [subset_iff_branches (Ty.ne_literal_of_basic basicC) other, branches_of_meet found]
          exact each

theorem meet_lower {a b ty : Ty} (basicA : a.basic = true) (basicB : b.basic = true)
    (found : meet a b = some ty) : subset ty a = true ∧ subset ty b = true :=
  lowerBelow _ basicA basicB (Nat.lt_succ_self _) found

theorem meet_greatest {a b c : Ty} (basicA : a.basic = true) (basicB : b.basic = true)
    (basicC : c.basic = true) (left : subset c a = true) (right : subset c b = true) :
    ∃ ty, meet a b = some ty ∧ subset c ty = true :=
  greatestBelow _ basicA basicB basicC (Nat.lt_succ_self _) left right

end Reference

theorem exists_equal_some {a : Ty} {x : Option Ty} (same : some a == x) :
    ∃ b, x = some b ∧ a == b := by
  cases x with
  | none => cases same
  | some b => exact ⟨b, rfl, same⟩

abbrev BasicTy := { ty : Ty // ty.basic = true }

/-- The meet of basic types is the greatest lower bound: if there is a meet it is below both
sides, and if anything is below both sides there is a meet, and it is above that. So it is for
questions asked of contexts, of one or of several, if the meet and the question asked last meet
no cutoff. -/
theorem meet_greatest_lower_bound [PairKey] :
    (∀ (a b : BasicTy) (ty : Ty), Reference.meet a.1 b.1 = some ty →
      Reference.subset ty a.1 = true ∧ Reference.subset ty b.1 = true) ∧
    (∀ a b c : BasicTy, Reference.subset c.1 a.1 = true → Reference.subset c.1 b.1 = true →
      ∃ ty, Reference.meet a.1 b.1 = some ty ∧ Reference.subset c.1 ty = true) ∧
    ∀ meeting : Context, meeting.Reached → ∀ a b : BasicTy, meeting.Settles (.meet a.1 b.1) →
      (∀ ty, meeting.found a.1 b.1 = some ty → ∀ context : Context, context.Reached →
        (context.Settles (.subset ty a.1) → context.Affirms (.subset ty a.1)) ∧
        (context.Settles (.subset ty b.1) → context.Affirms (.subset ty b.1))) ∧
      ∀ first second : Context, first.Reached → second.Reached → ∀ c : BasicTy,
        first.Affirms (.subset c.1 a.1) → second.Affirms (.subset c.1 b.1) →
        ∃ ty, meeting.found a.1 b.1 = some ty ∧ ∀ context : Context, context.Reached →
          context.Settles (.subset c.1 ty) → context.Affirms (.subset c.1 ty) := by
  refine ⟨fun a b ty => Reference.meet_lower a.2 b.2,
    fun a b c => Reference.meet_greatest a.2 b.2 c.2, ?_⟩
  intro meeting reached a b settles
  have plain := reached.found_plain settles
  constructor
  · intro ty found context reachedContext
    rw [found] at plain
    obtain ⟨other, there, same⟩ := exists_equal_some plain
    obtain ⟨left, right⟩ := Reference.meet_lower a.2 b.2 there
    constructor
    · intro settled
      refine reachedContext.affirms_of_plain settled ?_
      exact (Reference.subset_congr same (BEq.refl _)).trans left
    · intro settled
      refine reachedContext.affirms_of_plain settled ?_
      exact (Reference.subset_congr same (BEq.refl _)).trans right
  · intro first second reachedFirst reachedSecond c left right
    obtain ⟨other, there, below⟩ := Reference.meet_greatest a.2 b.2 c.2
      (reachedFirst.plain_of_affirms rfl left) (reachedSecond.plain_of_affirms rfl right)
    rw [there] at plain
    obtain ⟨ty, found, same⟩ := exists_equal_some (BEq.symm plain)
    refine ⟨ty, found, fun context reachedContext settled => ?_⟩
    refine reachedContext.affirms_of_plain settled ?_
    exact (Reference.subset_congr (BEq.refl _) same).symm.trans below

namespace BasicTy

def box (item : Ty) : Ty := .named "Box" [⟨"item", item, none⟩]

def numberLists : BasicTy :=
  ⟨.union [.list (.union [.number, .text]), box (.union [.number, .text])], rfl⟩

def truthLists : BasicTy :=
  ⟨.union [box (.union [.text, .number]), .list (.union [.text, .logic])], rfl⟩

def textLists : BasicTy :=
  ⟨.union [box (.union [.union [.text], .number, .text]), .list (.union [.text])], rfl⟩

end BasicTy

section

open BasicTy

theorem meet_greatest_lower_bound_boxes :
    ∃ ty, Reference.meet numberLists.1 truthLists.1 = some ty ∧
      (Context.new ⟨true, 6, 1⟩).found numberLists.1 truthLists.1 = some ty ∧
      (Reference.subset ty numberLists.1 = true ∧ Reference.subset ty truthLists.1 = true) ∧
      Reference.subset textLists.1 ty = true ∧
      (Context.new {}).Affirms (.subset ty numberLists.1) ∧
      (Context.new {}).Affirms (.subset textLists.1 ty) := by
  obtain ⟨lower, greatest, contexts⟩ := meet_greatest_lower_bound
  obtain ⟨ty, found, below⟩ := greatest numberLists truthLists textLists (by cbv) (by cbv)
  obtain ⟨lowers, greatests⟩ :=
    contexts (Context.new ⟨true, 6, 1⟩) (Context.reached_new _) numberLists truthLists (by cbv)
  obtain ⟨other, foundThere, affirmed⟩ := greatests (Context.new ⟨false, 6, 0⟩) (Context.new {})
    (Context.reached_new _) (Context.reached_new _) textLists (by cbv) (by cbv)
  -- both meets are found by evaluation
  have plainly : Reference.meet numberLists.1 truthLists.1 =
      some (.union [.list .text, box (.union [.number, .text])]) := by cbv
  have there : (Context.new ⟨true, 6, 1⟩).found numberLists.1 truthLists.1 =
      some (.union [.list .text, box (.union [.number, .text])]) := by cbv
  cases plainly.symm.trans found
  cases there.symm.trans foundThere
  refine ⟨_, found, foundThere, lower _ _ _ found, below, ?_, ?_⟩
  · exact (lowers _ foundThere (Context.new {}) (Context.reached_new _)).1 (by cbv)
  · exact affirmed (Context.new {}) (Context.reached_new _) (by cbv)

end

end StructuralTypes
