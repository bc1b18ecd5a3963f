import StructuralTypes.Proofs.FailClosed

/-!
Without dictionary types the subset relation is a preorder, and to be subsets of each other is
an equivalence. Transitivity goes by the joint height of the three types. Only classifiers are
compared part by part; a literal stands for its classifier unless the other side is a literal
too, and a union for its branches, so the triples of constructors come down to three
classifiers each of which is a branch. A dictionary only needs its fields to meet those of
another, and this does not compose.
-/

namespace StructuralTypes

mutual

/-- No dictionary type occurs; defaults of parameters are not looked at. -/
def Ty.dictionaryFree : Ty → Bool
  | .literal value => value.dictionaryFree
  | .union parts => Ty.allDictionaryFree parts
  | .resolved shape => shape.dictionaryFree

def Shape.dictionaryFree : Shape → Bool
  | .named _ parameters => Parameter.allDictionaryFree parameters
  | .function parameters result => Parameter.allDictionaryFree parameters && result.dictionaryFree
  | .list element => element.dictionaryFree
  | .tuple elements => Ty.allDictionaryFree elements
  | .dictionary _ => false
  | _ => true

def Value.dictionaryFree : Value → Bool
  | ⟨_, shape⟩ => shape.dictionaryFree

def Parameter.dictionaryFree : Parameter → Bool
  | ⟨_, ty, _⟩ => ty.dictionaryFree

def Ty.allDictionaryFree : List Ty → Bool
  | [] => true
  | ty :: rest => ty.dictionaryFree && Ty.allDictionaryFree rest

def Parameter.allDictionaryFree : List Parameter → Bool
  | [] => true
  | parameter :: rest => parameter.dictionaryFree && Parameter.allDictionaryFree rest

end

theorem Ty.dictionaryFree_of_mem {tys : List Ty} (free : Ty.allDictionaryFree tys = true) {ty : Ty}
    (member : ty ∈ tys) : ty.dictionaryFree = true := by
  induction member with
  | head rest =>
      simp only [Ty.allDictionaryFree, Bool.and_eq_true] at free
      exact free.1
  | tail other _ ih =>
      simp only [Ty.allDictionaryFree, Bool.and_eq_true] at free
      exact ih free.2

theorem Parameter.dictionaryFree_of_mem {ps : List Parameter}
    (free : Parameter.allDictionaryFree ps = true) {p : Parameter} (member : p ∈ ps) :
    p.ty.dictionaryFree = true := by
  induction member with
  | head rest =>
      obtain ⟨_, ty, _⟩ := p
      simp only [Parameter.allDictionaryFree, Bool.and_eq_true] at free
      exact free.1
  | tail other _ ih =>
      simp only [Parameter.allDictionaryFree, Bool.and_eq_true] at free
      exact ih free.2

theorem Ty.literal_or_other (a : Ty) : (∃ v, a = .literal v) ∨ ∀ v, a ≠ .literal v := by
  cases a with
  | literal value => exact .inl ⟨value, rfl⟩
  | union parts => exact .inr fun _ same => by cases same
  | resolved shape => exact .inr fun _ same => by cases same

theorem Ty.dictionaryFree_literal {value : Value}
    (free : (Ty.literal value).dictionaryFree = true) :
    (Ty.resolved value.shape).dictionaryFree = true := by
  obtain ⟨_, shape⟩ := value
  exact free

mutual

theorem Ty.dictionaryFree_of_mem_branches {branch : Ty} : ∀ {a : Ty}, a.dictionaryFree = true →
    branch ∈ a.branches → branch.dictionaryFree = true
  | .literal _, free, member => by rw [List.mem_singleton.mp member]; exact free
  | .resolved _, free, member => by rw [List.mem_singleton.mp member]; exact free
  | .union _, free, member =>
      Ty.dictionaryFree_of_mem_branchesOf free (Ty.mem_branches_union.mp member)

theorem Ty.dictionaryFree_of_mem_branchesOf {branch : Ty} : ∀ {parts : List Ty},
    Ty.allDictionaryFree parts = true → branch ∈ Ty.branchesOf parts → branch.dictionaryFree = true
  | part :: rest, free, member => by
      simp only [Ty.allDictionaryFree, Bool.and_eq_true] at free
      rcases List.mem_append.mp member with here | there
      · exact Ty.dictionaryFree_of_mem_branches free.1 here
      · exact Ty.dictionaryFree_of_mem_branchesOf free.2 there

end

theorem forall₂_compose {α β γ : Type} {first : α → β → Prop} {second : β → γ → Prop}
    {both : α → γ → Prop} {as : List α} {bs : List β} {cs : List γ}
    (left : List.Forall₂ first as bs) (right : List.Forall₂ second bs cs)
    (compose : ∀ a ∈ as, ∀ b ∈ bs, ∀ c ∈ cs, first a b → second b c → both a c) :
    List.Forall₂ both as cs := by
  induction left generalizing cs with
  | nil =>
      cases right
      exact .nil
  | cons head tail ih =>
      cases right with
      | cons other rest =>
          constructor
          · exact compose _ List.mem_cons_self _ List.mem_cons_self _ List.mem_cons_self head other
          · apply ih rest
            intro a inA b inB c inC
            exact compose a (List.mem_cons_of_mem _ inA) b (List.mem_cons_of_mem _ inB) c
              (List.mem_cons_of_mem _ inC)

namespace Reference

/-- Transitivity for types of joint height below `n`. -/
def TransitiveBelow (n : Nat) : Prop :=
  ∀ {a b c : Ty}, a.dictionaryFree = true → b.dictionaryFree = true → c.dictionaryFree = true →
    a.height + b.height + c.height < n → subset a b = true → subset b c = true →
    subset a c = true

variable {n : Nat}

theorem TransitiveBelow.typeEqual (ih : TransitiveBelow n) {a b c : Ty}
    (freeA : a.dictionaryFree = true) (freeB : b.dictionaryFree = true)
    (freeC : c.dictionaryFree = true) (low : a.height + b.height + c.height < n)
    (first : typeEqual a b = true) (second : typeEqual b c = true) : typeEqual a c = true := by
  rw [typeEqual_iff] at first second ⊢
  exact ⟨ih freeA freeB freeC low first.1 second.1,
    ih freeC freeB freeA (by omega) second.2 first.2⟩

theorem TransitiveBelow.parameters (ih : TransitiveBelow n) {ps qs rs : List Parameter}
    (freeP : Parameter.allDictionaryFree ps = true) (freeQ : Parameter.allDictionaryFree qs = true)
    (freeR : Parameter.allDictionaryFree rs = true)
    (low : Parameter.tallest ps + Parameter.tallest qs + Parameter.tallest rs < n)
    (first : ParametersEqual ps qs) (second : ParametersEqual qs rs) : ParametersEqual ps rs := by
  apply forall₂_compose first second
  intro p inP q inQ r inR one two
  constructor
  · exact one.1.trans two.1
  · have := Parameter.height_le_tallest inP
    have := Parameter.height_le_tallest inQ
    have := Parameter.height_le_tallest inR
    exact ih.typeEqual (Parameter.dictionaryFree_of_mem freeP inP)
      (Parameter.dictionaryFree_of_mem freeQ inQ) (Parameter.dictionaryFree_of_mem freeR inR)
      (by omega) one.2 two.2

theorem TransitiveBelow.shapeBelow (ih : TransitiveBelow n) {s t r : Shape}
    (freeS : s.dictionaryFree = true) (freeT : t.dictionaryFree = true)
    (freeR : r.dictionaryFree = true) (low : s.height + t.height + r.height ≤ n)
    (first : ShapeBelow s t) (second : ShapeBelow t r) : ShapeBelow s r := by
  cases first with
  | number | text | logic | void => exact second
  | named one =>
      cases second with
      | named two =>
          simp only [Shape.height] at low
          exact .named (ih.parameters freeS freeT freeR (by omega) one two)
  | function one result =>
      cases second with
      | function two other =>
          simp only [Shape.dictionaryFree, Bool.and_eq_true] at freeS freeT freeR
          simp only [Shape.height] at low
          exact .function (ih.parameters freeS.1 freeT.1 freeR.1 (by omega) one two)
            (ih freeS.2 freeT.2 freeR.2 (by omega) result other)
  | list one =>
      cases second with
      | list two =>
          simp only [Shape.height] at low
          exact .list (ih freeS freeT freeR (by omega) one two)
  | tuple one =>
      cases second with
      | tuple two =>
          simp only [Shape.height] at low
          apply ShapeBelow.tuple
          apply forall₂_compose one two
          intro a inA b inB c inC
          have := Ty.height_le_tallest inA
          have := Ty.height_le_tallest inB
          have := Ty.height_le_tallest inC
          exact ih (Ty.dictionaryFree_of_mem freeS inA) (Ty.dictionaryFree_of_mem freeT inB)
            (Ty.dictionaryFree_of_mem freeR inC) (by omega)
  | dictionary fields => cases freeS

theorem TransitiveBelow.resolved (ih : TransitiveBelow n) {s t r : Shape}
    (freeS : s.dictionaryFree = true) (freeT : t.dictionaryFree = true)
    (freeR : r.dictionaryFree = true) (low : s.height + t.height + r.height ≤ n)
    (first : subset (.resolved s) (.resolved t) = true)
    (second : subset (.resolved t) (.resolved r) = true) :
    subset (.resolved s) (.resolved r) = true := by
  rcases (subset_resolved_iff s t).mp first with same | one
  · rw [subset_congr ((Ty.resolved_equal_iff s t).mpr same) (BEq.refl _)]
    exact second
  · rcases (subset_resolved_iff t r).mp second with same | two
    · rw [← subset_congr (BEq.refl _) ((Ty.resolved_equal_iff t r).mpr same)]
      exact first
    · exact (subset_resolved_iff s r).mpr (.inr (ih.shapeBelow freeS freeT freeR low one two))

theorem subset_resolved_branch (s : Shape) (c : Ty) : subset (.resolved s) c = true ↔
    ∃ t, .resolved t ∈ c.branches ∧ subset (.resolved s) (.resolved t) = true := by
  -- only a classifier can be above one, since branches are no unions
  have pick : ∀ {branch : Ty}, branch.isUnion = false → subset (.resolved s) branch = true →
      ∃ t, branch = .resolved t := by
    intro branch single below
    cases branch with
    | literal v => exact absurd ((not_subset_literal s v).symm.trans below) Bool.false_ne_true
    | union parts => cases single
    | resolved t => exact ⟨t, rfl⟩
  cases c with
  | literal v => simp [not_subset_literal, Ty.branches]
  | union parts =>
      rw [subset_union_right]
      constructor
      · rintro ⟨branch, member, below⟩
        obtain ⟨t, rfl⟩ := pick (Ty.isUnion_of_mem_branchesOf member) below
        exact ⟨t, member, below⟩
      · rintro ⟨t, member, below⟩
        exact ⟨.resolved t, member, below⟩
  | resolved t => simp [Ty.branches]

theorem subset_of_resolved_branch {b c : Ty} (below : subset b c = true) {t : Shape}
    (member : .resolved t ∈ b.branches) : subset (.resolved t) c = true := by
  cases b with
  | literal v => simp [Ty.branches] at member
  | resolved s =>
      cases List.mem_singleton.mp member
      exact below
  | union parts =>
      have inside := Ty.mem_branches_union.mp member
      rcases c.literal_or_other with ⟨v, rfl⟩ | other
      · rw [(subset_union_literal parts v).mp below] at inside
        cases inside
      · obtain ⟨branch, there, step⟩ := (subset_union_left parts other).mp below _ inside
        obtain ⟨r, last, under⟩ := (subset_resolved_branch t branch).mp step
        rw [Ty.branches_of_single (Ty.isUnion_of_mem_branches there)] at last
        refine (subset_resolved_branch t c).mpr ⟨r, ?_, under⟩
        rw [List.mem_singleton.mp last]
        exact there

theorem exists_branch_above {b c : Ty} (other : ∀ v, b ≠ .literal v) (last : ∀ v, c ≠ .literal v)
    (below : subset b c = true) {branch : Ty} (member : branch ∈ b.branches) :
    ∃ above ∈ c.branches, subset branch above = true := by
  cases b with
  | literal v => exact absurd rfl (other v)
  | union parts =>
      exact (subset_union_left parts last).mp below branch (Ty.mem_branches_union.mp member)
  | resolved s =>
      cases List.mem_singleton.mp member
      obtain ⟨t, there, under⟩ := (subset_resolved_branch s c).mp below
      exact ⟨.resolved t, there, under⟩

theorem branches_eq_nil {a b : Ty} (below : subset a b = true) (empty : b.branches = []) :
    a.branches = [] := by
  have other : ∀ v, b ≠ .literal v := by
    rintro v rfl
    cases empty
  have none : ∀ s, subset (.resolved s) b ≠ true := by
    intro s inside
    obtain ⟨t, member, -⟩ := (subset_resolved_branch s b).mp inside
    rw [empty] at member
    cases member
  cases a with
  | literal u =>
      rw [subset_literal_left u other] at below
      exact absurd below (none u.shape)
  | resolved s => exact absurd below (none s)
  | union parts =>
      apply List.eq_nil_iff_forall_not_mem.mpr
      intro branch member
      have inside := Ty.mem_branches_union.mp member
      obtain ⟨above, there, -⟩ := (subset_union_left parts other).mp below branch inside
      rw [empty] at there
      cases there

theorem TransitiveBelow.resolvedLeft (ih : TransitiveBelow n) {s : Shape} {b c : Ty}
    (freeS : s.dictionaryFree = true) (freeB : b.dictionaryFree = true)
    (freeC : c.dictionaryFree = true) (low : s.height + b.height + c.height ≤ n)
    (first : subset (.resolved s) b = true) (second : subset b c = true) :
    subset (.resolved s) c = true := by
  obtain ⟨t, inB, one⟩ := (subset_resolved_branch s b).mp first
  obtain ⟨r, inC, two⟩ := (subset_resolved_branch t c).mp (subset_of_resolved_branch second inB)
  have lowT : t.height ≤ b.height := Ty.height_of_mem_branches inB
  have lowR : r.height ≤ c.height := Ty.height_of_mem_branches inC
  refine (subset_resolved_branch s c).mpr ⟨r, inC, ?_⟩
  exact ih.resolved freeS (Ty.dictionaryFree_of_mem_branches freeB inB)
    (Ty.dictionaryFree_of_mem_branches freeC inC) (by omega) one two

theorem TransitiveBelow.literalLeft (ih : TransitiveBelow n) {u : Value} {b c : Ty}
    (last : ∀ v, c ≠ .literal v) (freeU : (Ty.literal u).dictionaryFree = true)
    (freeB : b.dictionaryFree = true) (freeC : c.dictionaryFree = true)
    (low : (Ty.literal u).height + b.height + c.height ≤ n)
    (first : subset (.literal u) b = true) (second : subset b c = true) :
    subset (.literal u) c = true := by
  have free := Ty.dictionaryFree_literal freeU
  simp only [Ty.height, Value.height_eq] at low
  rw [subset_literal_left u last]
  rcases b.literal_or_other with ⟨v, rfl⟩ | other
  · have shapes := ((subset_literals_iff u v).mp first).2
    rw [subset_literal_left v last] at second
    refine ih.resolvedLeft free (Ty.dictionaryFree_literal freeB) freeC ?_
      ((subset_resolved_iff u.shape v.shape).mpr shapes) second
    simp only [Ty.height, Value.height_eq] at low ⊢
    omega
  · rw [subset_literal_left u other] at first
    exact ih.resolvedLeft free freeB freeC (by omega) first second

theorem TransitiveBelow.unionLeft (ih : TransitiveBelow n) {parts : List Ty} {b c : Ty}
    (last : ∀ v, c ≠ .literal v) (freeA : (Ty.union parts).dictionaryFree = true)
    (freeB : b.dictionaryFree = true) (freeC : c.dictionaryFree = true)
    (low : (Ty.union parts).height + b.height + c.height ≤ n)
    (first : subset (.union parts) b = true) (second : subset b c = true) :
    subset (.union parts) c = true := by
  rw [subset_union_left parts last]
  intro branch member
  rcases b.literal_or_other with ⟨v, rfl⟩ | other
  · rw [(subset_union_literal parts v).mp first] at member
    cases member
  · obtain ⟨middle, inB, one⟩ := (subset_union_left parts other).mp first branch member
    obtain ⟨above, inC, two⟩ := exists_branch_above other last second inB
    have inside := Ty.mem_branches_union.mpr member
    have lowBranch := Ty.height_of_mem_union rfl inside
    have lowMiddle := Ty.height_of_mem_branches inB
    have lowAbove := Ty.height_of_mem_branches inC
    refine ⟨above, inC, ih ?_ ?_ ?_ (by omega) one two⟩
    · exact Ty.dictionaryFree_of_mem_branches freeA inside
    · exact Ty.dictionaryFree_of_mem_branches freeB inB
    · exact Ty.dictionaryFree_of_mem_branches freeC inC

theorem TransitiveBelow.literalRight (ih : TransitiveBelow n) {a b : Ty} {w : Value}
    (freeA : a.dictionaryFree = true) (freeB : b.dictionaryFree = true)
    (freeW : (Ty.literal w).dictionaryFree = true)
    (low : a.height + b.height + (Ty.literal w).height ≤ n) (first : subset a b = true)
    (second : subset b (.literal w) = true) : subset a (.literal w) = true := by
  cases b with
  | resolved t => exact absurd ((not_subset_literal t w).symm.trans second) Bool.false_ne_true
  | union parts =>
      -- only a union without branches is below a literal, so `a` has no branches either
      have empty : (Ty.union parts).branches = [] := by
        simpa only [Ty.branches] using (subset_union_literal parts w).mp second
      have none := branches_eq_nil first empty
      cases a with
      | literal u => cases none
      | resolved s => cases none
      | union others =>
          exact (subset_union_literal others w).mpr (by simpa only [Ty.branches] using none)
  | literal v =>
      cases a with
      | resolved s => exact absurd ((not_subset_literal s v).symm.trans first) Bool.false_ne_true
      | union others =>
          exact (subset_union_literal others w).mpr ((subset_union_literal others v).mp first)
      | literal u =>
          rw [subset_literals_iff] at first second ⊢
          refine ⟨PartialEquivBEq.trans first.1 second.1, ?_⟩
          rw [← subset_resolved_iff]
          refine ih.resolved (Ty.dictionaryFree_literal freeA) (Ty.dictionaryFree_literal freeB)
            (Ty.dictionaryFree_literal freeW) ?_ ((subset_resolved_iff _ _).mpr first.2)
            ((subset_resolved_iff _ _).mpr second.2)
          simp only [Ty.height, Value.height_eq] at low
          omega

theorem transitiveBelow (n : Nat) : TransitiveBelow n := by
  induction n with
  | zero =>
      intro a b c _ _ _ low
      exact absurd low (Nat.not_lt_zero _)
  | succ n ih =>
      intro a b c freeA freeB freeC low first second
      rcases c.literal_or_other with ⟨w, rfl⟩ | last
      · exact ih.literalRight freeA freeB freeC (by omega) first second
      · cases a with
        | literal u => exact ih.literalLeft last freeA freeB freeC (by omega) first second
        | union parts => exact ih.unionLeft last freeA freeB freeC (by omega) first second
        | resolved s =>
            simp only [Ty.height] at low
            exact ih.resolvedLeft freeA freeB freeC (by omega) first second

theorem subset_trans {a b c : Ty} (freeA : a.dictionaryFree = true)
    (freeB : b.dictionaryFree = true) (freeC : c.dictionaryFree = true)
    (first : subset a b = true) (second : subset b c = true) : subset a c = true :=
  transitiveBelow _ freeA freeB freeC (Nat.lt_succ_self _) first second

theorem typeEqual_trans {a b c : Ty} (freeA : a.dictionaryFree = true)
    (freeB : b.dictionaryFree = true) (freeC : c.dictionaryFree = true)
    (first : typeEqual a b = true) (second : typeEqual b c = true) : typeEqual a c = true :=
  TransitiveBelow.typeEqual (transitiveBelow _) freeA freeB freeC (Nat.lt_succ_self _) first second

theorem typeEqual_refl (a : Ty) : typeEqual a a = true :=
  (typeEqual_iff a a).mpr ⟨subset_refl a, subset_refl a⟩

theorem typeEqual_symm {a b : Ty} (equal : typeEqual a b = true) : typeEqual b a = true :=
  (typeEqual_iff b a).mpr ((typeEqual_iff a b).mp equal).symm

end Reference

theorem Answer.positive_equal {x y : Answer} (same : x == y) : x.positive = y.positive := by
  cases x <;> cases y <;> first | exact absurd same Bool.false_ne_true | skip
  · exact eq_of_beq same
  · exact isSome_equal same

theorem Query.subset_of_equal [PairKey] {a b : Ty} (same : a == b) :
    queries.subset a b = pure true := by
  have rank : a.height + b.height = a.height + b.height - 1 + 1 := by
    have := a.height_pos
    omega
  simp only [queries]
  rw [rank]
  simp only [within, same, if_true]

namespace Context

variable [PairKey]

/-- A context after some history, on some settings. -/
def Reached (context : Context) : Prop :=
  ∃ config requests, context = Request.history requests (Context.new config)

/-- The answer is that it holds, or a type. -/
def Affirms (context : Context) (question : Question) : Prop :=
  (question.ask.run context).1.positive = true

/-- The question meets no cutoff. -/
def Settles (context : Context) (question : Question) : Prop :=
  (question.ask.run context).2.cutoffs = context.cutoffs

theorem reached_new (config : Config) : (Context.new config).Reached := ⟨config, [], rfl⟩

variable {context : Context} {question : Question}

theorem Reached.plain_of_affirms (reached : context.Reached) (single : question.reduces = false)
    (affirms : context.Affirms question) : question.answer.positive = true := by
  obtain ⟨config, requests, rfl⟩ := reached
  exact (Query.ask_below question _ (Request.reached_cautious config requests)).2 single affirms

theorem Reached.answers (reached : context.Reached) (settles : context.Settles question) :
    (question.ask.run context).1 == question.answer := by
  obtain ⟨config, requests, rfl⟩ := reached
  exact (Query.ask_tracks question).answers _ (Request.reached_sound config requests) settles

theorem Reached.affirms_iff (reached : context.Reached) (settles : context.Settles question) :
    context.Affirms question ↔ question.answer.positive = true := by
  rw [Affirms, Answer.positive_equal (reached.answers settles)]

theorem Reached.affirms_of_plain (reached : context.Reached) (settles : context.Settles question)
    (plain : question.answer.positive = true) : context.Affirms question :=
  (reached.affirms_iff settles).mpr plain

theorem affirms_subset_self (context : Context) (a : Ty) : context.Affirms (.subset a a) := by
  simp only [Affirms, Question.ask, Question.answerBy, Query.subset_of_equal (BEq.refl a)]
  rfl

theorem affirms_typeEqual_self (context : Context) (a : Ty) : context.Affirms (.typeEqual a a) := by
  simp only [Affirms, Question.ask, Question.answerBy, Rules.typeEqual,
    Query.subset_of_equal (BEq.refl a)]
  rfl

end Context

abbrev DictionaryFree := { ty : Ty // ty.dictionaryFree = true }

/-- Without dictionary types the subset relation is a preorder and to be subsets of each other
is an equivalence. So it is for questions asked of contexts, of one or of several, if the
question asked last meets no cutoff. -/
theorem subset_preorder_without_dictionaries [PairKey] :
    (∀ a : DictionaryFree, Reference.subset a.1 a.1 = true) ∧
    (∀ a b c : DictionaryFree, Reference.subset a.1 b.1 = true → Reference.subset b.1 c.1 = true →
      Reference.subset a.1 c.1 = true) ∧
    Equivalence (fun a b : DictionaryFree => Reference.typeEqual a.1 b.1 = true) ∧
    ∀ first second third : Context, first.Reached → second.Reached → third.Reached →
      ∀ a b c : DictionaryFree,
        third.Affirms (.subset a.1 a.1) ∧
        (first.Affirms (.subset a.1 b.1) → second.Affirms (.subset b.1 c.1) →
          third.Settles (.subset a.1 c.1) → third.Affirms (.subset a.1 c.1)) ∧
        third.Affirms (.typeEqual a.1 a.1) ∧
        (first.Affirms (.typeEqual a.1 b.1) → third.Settles (.typeEqual b.1 a.1) →
          third.Affirms (.typeEqual b.1 a.1)) ∧
        (first.Affirms (.typeEqual a.1 b.1) → second.Affirms (.typeEqual b.1 c.1) →
          third.Settles (.typeEqual a.1 c.1) → third.Affirms (.typeEqual a.1 c.1)) := by
  refine ⟨fun a => Reference.subset_refl a.1, fun a b c => Reference.subset_trans a.2 b.2 c.2,
    ⟨fun a => Reference.typeEqual_refl a.1, Reference.typeEqual_symm,
      fun {a b c} => Reference.typeEqual_trans a.2 b.2 c.2⟩, ?_⟩
  intro first second third reached reachedSecond reachedThird a b c
  refine ⟨third.affirms_subset_self a.1, fun one two settles => ?_,
    third.affirms_typeEqual_self a.1, fun one settles => ?_, fun one two settles => ?_⟩
  · exact reachedThird.affirms_of_plain settles (Reference.subset_trans a.2 b.2 c.2
      (reached.plain_of_affirms rfl one) (reachedSecond.plain_of_affirms rfl two))
  · exact reachedThird.affirms_of_plain settles
      (Reference.typeEqual_symm (reached.plain_of_affirms rfl one))
  · exact reachedThird.affirms_of_plain settles (Reference.typeEqual_trans a.2 b.2 c.2
      (reached.plain_of_affirms rfl one) (reachedSecond.plain_of_affirms rfl two))

namespace DictionaryFree

def flat : DictionaryFree := ⟨.union [.number, .text], rfl⟩

def repeated : DictionaryFree := ⟨.union [.text, .number, .text], rfl⟩

def nested : DictionaryFree := ⟨.union [.union [], .number, .union [.text]], rfl⟩

def narrow : DictionaryFree := ⟨.function [⟨"x", flat.1, none⟩] (.literal (.text "hi")), rfl⟩

def middle : DictionaryFree := ⟨.function [⟨"x", repeated.1, none⟩] .text, rfl⟩

def wide : DictionaryFree :=
  ⟨.union [.logic, .function [⟨"x", nested.1, none⟩] (.union [.number, .text])], rfl⟩

end DictionaryFree

section

open DictionaryFree

theorem subset_preorder_without_dictionaries_functions :
    Reference.subset narrow.1 wide.1 = true ∧
    Reference.typeEqual flat.1 nested.1 = true ∧
    (Context.new {}).Affirms (.subset narrow.1 wide.1) ∧
    (Context.new {}).Affirms (.typeEqual flat.1 nested.1) := by
  obtain ⟨-, trans, equivalence, contexts⟩ := subset_preorder_without_dictionaries
  have reached : ∀ config, (Context.new config).Reached := fun config => ⟨config, [], rfl⟩
  have asked := contexts (Context.new ⟨true, 4, 1⟩) (Context.new ⟨false, 4, 0⟩) (Context.new {})
    (reached _) (reached _) (reached _)
  have flatRepeated : Reference.typeEqual flat.1 repeated.1 = true := by cbv
  refine ⟨trans narrow middle wide ?_ ?_, equivalence.trans flatRepeated ?_,
    (asked narrow middle wide).2.1 ?_ ?_ ?_, (asked flat repeated nested).2.2.2.2 ?_ ?_ ?_⟩ <;> cbv

end

end StructuralTypes
