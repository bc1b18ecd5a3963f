import StructuralTypes.Algebra.Question
import StructuralTypes.Proofs.Equality

/-!
The rules in two monads at once. A `Lockstep` compares computations by the answers they
give, up to equality; if two `Queries` agree on all operands below a rank, the rules over
them agree one rank higher. The rank of a question goes down in every rule, so an
agreement on all ranks needs only the wrappers around the rules: the plain answers at two
numbers of steps, a context against the plain answers, and a context against a set of
possible answers are all instances.
-/

namespace StructuralTypes

/-- The rank of a subset question. A literal is one step above its classifier here, since
the meet of a literal asks the subset question on the same operands. -/
def Ty.subsetRank (a b : Ty) : Nat :=
  match a with
  | .literal value => value.shape.height + b.height + 1
  | a => a.height + b.height

theorem Ty.subsetRank_le (a b : Ty) : a.subsetRank b ≤ a.height + b.height := by
  cases a <;> simp only [Ty.subsetRank, Ty.height, Value.height_eq] <;> omega

theorem Ty.subsetRank_pos (a b : Ty) : 0 < a.subsetRank b := by
  have below := b.height_pos
  cases a <;> simp only [Ty.subsetRank] <;> omega

theorem Ty.subsetRank_equal {a b c d : Ty} (left : a == c) (right : b == d) :
    a.subsetRank b = c.subsetRank d := by
  have lefts := Ty.height_equal left
  have rights := Ty.height_equal right
  have alike : Ty.Alike .equality a c := Precision.ty_iff.mp left
  cases alike <;> simp only [Ty.subsetRank, Ty.height, Value.height_eq] at lefts ⊢ <;> omega

instance : ReflBEq Answer where
  rfl := by
    intro answer
    cases answer with
    | truth holds => exact BEq.refl holds
    | type ty => exact BEq.refl ty

theorem Precision.truth_iff {precision : Precision} {x y : Bool} :
    precision.same (Answer.truth x) (Answer.truth y) ↔ precision.same x y := by
  cases precision with
  | letter => exact Iff.of_eq (Answer.truth.injEq x y)
  | equality => exact Iff.rfl

theorem Precision.type_iff {precision : Precision} {x y : Option Ty} :
    precision.same (Answer.type x) (Answer.type y) ↔ precision.same x y := by
  cases precision with
  | letter => exact Iff.of_eq (Answer.type.injEq x y)
  | equality => exact Iff.rfl

/-- A comparison of computations by their answers, kept by sequencing. -/
structure Lockstep (m n : Type → Type) [Monad m] [Monad n] where
  -- how closely the answers are compared
  precision : Precision
  agree : {α : Type} → [BEq α] → m α → n α → Prop
  pure : ∀ {α : Type} [BEq α] {x y : α}, precision.same x y → agree (pure x) (pure y)
  -- also answers that a computation never gives are continued, so equality is reflexive here
  bind : ∀ {α β : Type} [BEq α] [ReflBEq α] [BEq β] {x : m α} {y : n α} {f : α → m β}
    {g : α → n β}, agree x y → (∀ u v, precision.same u v → agree (f u) (g v)) →
      agree (x >>= f) (y >>= g)

namespace Lockstep

variable {m n : Type → Type} [Monad m] [Monad n] (step : Lockstep m n)

theorem refl {α : Type} [BEq α] [ReflBEq α] (x : α) :
    step.agree (Pure.pure x : m α) (Pure.pure x : n α) :=
  step.pure (Precision.refl x)

theorem bindBool {β : Type} [BEq β] {x : m Bool} {y : n Bool} {f : Bool → m β} {g : Bool → n β}
    (first : step.agree x y) (rest : ∀ holds, step.agree (f holds) (g holds)) :
    step.agree (x >>= f) (y >>= g) := by
  refine step.bind first fun u v equal => ?_
  cases Precision.eq equal
  exact rest u

theorem bindOption {α β : Type} [BEq α] [ReflBEq α] [BEq β] {x : m (Option α)} {y : n (Option α)}
    {f : Option α → m β} {g : Option α → n β} (first : step.agree x y)
    (none : step.agree (f none) (g none))
    (some : ∀ a b, step.precision.same a b → step.agree (f (some a)) (g (some b))) :
    step.agree (x >>= f) (y >>= g) := by
  refine step.bind first fun u v equal => ?_
  rcases Precision.option_cases equal with ⟨rfl, rfl⟩ | ⟨a, b, rfl, rfl, same⟩
  · exact none
  · exact some a b same

theorem choose {x : m Bool} {y : n Bool} {a b : Ty} (test : step.agree x y)
    (same : step.precision.same a b) :
    step.agree (do if ← x then Pure.pure (some a) else Pure.pure none : m (Option Ty))
      (do if ← y then Pure.pure (some b) else Pure.pure none : n (Option Ty)) := by
  refine step.bindBool test fun holds => ?_
  cases holds with
  | true => exact step.pure (Precision.some_iff.mpr same)
  | false => exact step.refl none

theorem allM {α : Type} {related : α → α → Prop} {xs ys : List α}
    (lists : List.Forall₂ related xs ys) {test : α → m Bool} {other : α → n Bool}
    (each : ∀ x ∈ xs, ∀ y, related x y → step.agree (test x) (other y)) :
    step.agree (xs.allM test) (ys.allM other) := by
  induction lists with
  | nil => exact step.refl true
  | cons head tail ih =>
      rw [List.allM_cons, List.allM_cons]
      refine step.bindBool (each _ List.mem_cons_self _ head) fun holds => ?_
      cases holds with
      | true => exact ih fun x member => each x (List.mem_cons_of_mem _ member)
      | false => exact step.refl false

theorem anyM {α : Type} {related : α → α → Prop} {xs ys : List α}
    (lists : List.Forall₂ related xs ys) {test : α → m Bool} {other : α → n Bool}
    (each : ∀ x ∈ xs, ∀ y, related x y → step.agree (test x) (other y)) :
    step.agree (xs.anyM test) (ys.anyM other) := by
  induction lists with
  | nil => exact step.refl false
  | cons head tail ih =>
      rw [List.anyM_cons, List.anyM_cons]
      refine step.bindBool (each _ List.mem_cons_self _ head) fun holds => ?_
      cases holds with
      | true => exact step.refl true
      | false => exact ih fun x member => each x (List.mem_cons_of_mem _ member)

end Lockstep

theorem zip_related {α β : Type} {R : α → α → Prop} {S : β → β → Prop} {as bs : List α}
    {cs ds : List β} (left : List.Forall₂ R as bs) (right : List.Forall₂ S cs ds) :
    List.Forall₂ (fun p q => R p.1 q.1 ∧ S p.2 q.2) (as.zip cs) (bs.zip ds) := by
  induction left generalizing cs ds with
  | nil => exact .nil
  | cons head tail ih =>
      cases right with
      | nil => exact .nil
      | cons first rest => exact .cons ⟨head, first⟩ (ih rest)

/-- Two `Queries` agree on equal operands, as far as their rank is within `bound`. -/
structure Agreement {m n : Type → Type} [Monad m] [Monad n] (step : Lockstep m n)
    (q : Queries m) (r : Queries n) (bound : Nat) : Prop where
  subset : ∀ {a b c d : Ty}, step.precision.same a c → step.precision.same b d →
    a.subsetRank b ≤ bound → step.agree (q.subset a b) (r.subset c d)
  meet : ∀ {a b c d : Ty}, step.precision.same a c → step.precision.same b d →
    a.height + b.height ≤ bound → step.agree (q.meet a b) (r.meet c d)

namespace Agreement

variable {m n : Type → Type} [Monad m] [Monad n] {step : Lockstep m n} {q : Queries m}
  {r : Queries n} {bound : Nat}

theorem subset_of_height (agrees : Agreement step q r bound) {a b c d : Ty}
    (left : step.precision.same a c) (right : step.precision.same b d)
    (below : a.height + b.height ≤ bound) :
    step.agree (q.subset a b) (r.subset c d) :=
  agrees.subset left right (Nat.le_trans (Ty.subsetRank_le a b) below)

theorem typeEqual (agrees : Agreement step q r bound) {a b c d : Ty}
    (left : step.precision.same a c) (right : step.precision.same b d)
    (below : a.height + b.height ≤ bound) :
    step.agree (Rules.typeEqual q a b) (Rules.typeEqual r c d) := by
  refine step.bindBool (agrees.subset_of_height left right below) fun holds => ?_
  cases holds with
  | true => exact agrees.subset_of_height right left (by omega)
  | false => exact step.refl false

theorem parametersEqual (agrees : Agreement step q r bound) {ps rs ps' rs' : List Parameter}
    (left : step.precision.same ps ps') (right : step.precision.same rs rs')
    (below : Parameter.tallest ps + Parameter.tallest rs ≤ bound) :
    step.agree (Rules.parametersEqual q ps rs) (Rules.parametersEqual r ps' rs') := by
  have lefts := Precision.list_iff.mp left
  have rights := Precision.list_iff.mp right
  have lengths : (ps.length = rs.length) = (ps'.length = rs'.length) := by
    rw [lefts.length_eq, rights.length_eq]
  simp only [Rules.parametersEqual, lengths]
  split
  · refine step.allM (zip_related lefts rights) ?_
    rintro ⟨p, s⟩ member ⟨p', s'⟩ ⟨first, second⟩
    have inside := List.of_mem_zip member
    have lower := Parameter.height_le_tallest inside.1
    have lowerOther := Parameter.height_le_tallest inside.2
    simp only at first second ⊢
    rw [Precision.parameter_name first, Precision.parameter_name second]
    split
    · exact agrees.typeEqual (Precision.parameter_ty first) (Precision.parameter_ty second)
        (by omega)
    · exact step.refl false
  · exact step.refl false

theorem shapeSubset (agrees : Agreement step q r bound) {s t s' t' : Shape}
    (left : step.precision.same s s') (right : step.precision.same t t')
    (below : s.height + t.height ≤ bound + 2) :
    step.agree (Rules.shapeSubset q s t) (Rules.shapeSubset r s' t') := by
  have lefts := Precision.shape_iff.mp left
  have rights := Precision.shape_iff.mp right
  cases lefts <;> cases rights <;> simp only [Rules.shapeSubset, Shape.height] at below ⊢ <;>
    first
      | exact step.refl false
      | exact step.refl true
      | skip
  case named.named name ps ps' params other rs rs' others =>
    split
    · exact agrees.parametersEqual params others (by omega)
    · exact step.refl false
  case function.function ps ps' a a' params result rs rs' b b' others otherResult =>
    refine step.bindBool (agrees.parametersEqual params others (by omega)) fun holds => ?_
    cases holds with
    | true => exact agrees.subset_of_height result otherResult (by omega)
    | false => exact step.refl false
  case list.list a a' element b b' otherElement =>
    exact agrees.subset_of_height element otherElement (by omega)
  case tuple.tuple as as' elements bs bs' others =>
    have lists := Precision.list_iff.mp elements
    have otherLists := Precision.list_iff.mp others
    rw [lists.length_eq, otherLists.length_eq]
    split
    · refine step.allM (zip_related lists otherLists) ?_
      rintro ⟨a, b⟩ member ⟨a', b'⟩ ⟨first, second⟩
      have inside := List.of_mem_zip member
      have lower := Ty.height_le_tallest inside.1
      have lowerOther := Ty.height_le_tallest inside.2
      simp only at first second ⊢
      exact agrees.subset_of_height first second (by omega)
    · exact step.refl false
  case dictionary.dictionary entries entries' fields required required' needs =>
    refine step.allM (Precision.list_iff.mp needs) ?_
    rintro ⟨key, needed⟩ member ⟨key', needed'⟩ same
    obtain ⟨rfl, needs⟩ := Precision.entry_iff.mp same
    have lower := Ty.height_le_tallestEntry member
    simp only
    rcases Precision.option_cases (Precision.get? fields key) with
      ⟨absent, absent'⟩ | ⟨field, field', found, found', equal⟩
    · rw [absent, absent']
      exact step.refl false
    · rw [found, found']
      have lowerField := Ty.height_le_tallestEntry (Keyed.mem_of_get? found)
      refine step.bindOption (agrees.meet equal needs (by omega)) (step.refl false) ?_
      exact fun _ _ _ => step.refl true

theorem valueEqual (agrees : Agreement step q r bound) {u v u' v' : Value}
    (payload : step.precision.same u.payload u'.payload)
    (shape : step.precision.same u.shape u'.shape)
    (otherPayload : step.precision.same v.payload v'.payload)
    (otherShape : step.precision.same v.shape v'.shape)
    (below : u.shape.height + v.shape.height ≤ bound + 2) :
    step.agree (Rules.valueEqual q u v) (Rules.valueEqual r u' v') := by
  refine step.bindBool (agrees.shapeSubset shape otherShape below) fun holds => ?_
  cases holds with
  | true =>
      have payloads : (u.payload == v.payload) = (u'.payload == v'.payload) :=
        Precision.beq_congr payload otherPayload
      simp only [payloads]
      exact step.refl _
  | false => exact step.refl false

theorem covered (agrees : Agreement step q r bound) {subs sups subs' sups' : List Ty}
    (left : step.precision.same subs subs') (right : step.precision.same sups sups')
    (below : ∀ sub ∈ subs, ∀ sup ∈ sups, sub.height + sup.height ≤ bound) :
    step.agree (Rules.covered q subs sups) (Rules.covered r subs' sups') := by
  refine step.allM (Precision.list_iff.mp left) fun sub member sub' equal => ?_
  refine step.anyM (Precision.list_iff.mp right) fun sup inside sup' equalSup => ?_
  exact agrees.subset_of_height equal equalSup (below sub member sup inside)

theorem subsetRule (agrees : Agreement step q r bound) {a b c d : Ty}
    (left : step.precision.same a c) (right : step.precision.same b d)
    (below : a.subsetRank b ≤ bound + 1) :
    step.agree (Rules.subset q a b) (Rules.subset r c d) := by
  have lefts := Precision.ty_iff.mp left
  have rights := Precision.ty_iff.mp right
  cases lefts with
  | @literal u u' payload shape =>
      have carriers : step.precision.same (Ty.resolved u.shape) (Ty.resolved u'.shape) :=
        Precision.ty_iff.mpr (.resolved shape)
      cases rights with
      | literal otherPayload otherShape =>
          simp only [Rules.subset, Ty.subsetRank, Ty.height, Value.height_eq] at below ⊢
          exact agrees.valueEqual payload shape otherPayload otherShape (by omega)
      | union branches =>
          simp only [Rules.subset, Ty.subsetRank, Ty.height] at below ⊢
          exact agrees.subset_of_height carriers right (by simp only [Ty.height]; omega)
      | resolved otherShape =>
          simp only [Rules.subset, Ty.subsetRank, Ty.height] at below ⊢
          exact agrees.subset_of_height carriers right (by simp only [Ty.height]; omega)
  | @union parts parts' branches =>
      have flat := Precision.branchesOf branches
      have empties := isEmpty_equal (Precision.equal flat)
      have lower : ∀ sub ∈ Ty.branchesOf parts, ∀ sup ∈ b.branches,
          sub.height + sup.height ≤ bound := by
        intro sub member sup inside
        have first := Ty.height_of_mem_branchesOf member
        have second := Ty.height_of_mem_branches inside
        simp only [Ty.subsetRank, Ty.height] at below
        omega
      cases rights with
      | literal otherPayload otherShape =>
          simp only [Rules.subset, empties]
          exact step.refl _
      | union others =>
          simp only [Rules.subset, empties]
          split
          · exact step.refl true
          · exact agrees.covered flat (Precision.branches right) lower
      | resolved otherShape =>
          simp only [Rules.subset, empties]
          split
          · exact step.refl true
          · exact agrees.covered flat (Precision.branches right) lower
  | @resolved s s' shape =>
      cases rights with
      | literal otherPayload otherShape => exact step.refl false
      | @union parts parts' branches =>
          refine agrees.covered (Precision.singleton left) (Precision.branchesOf branches) ?_
          intro sub member sup inside
          cases List.mem_singleton.mp member
          have lower := Ty.height_of_mem_branchesOf inside
          simp only [Ty.subsetRank, Ty.height] at below ⊢
          omega
      | resolved otherShape =>
          simp only [Ty.subsetRank, Ty.height] at below
          exact agrees.shapeSubset shape otherShape (by omega)

theorem meetSome (agrees : Agreement step q r bound) {pairs pairs' : List (Ty × Ty)}
    (lists : List.Forall₂
      (fun p p' => step.precision.same p.1 p'.1 ∧ step.precision.same p.2 p'.2) pairs pairs')
    (below : ∀ p ∈ pairs, p.1.height + p.2.height ≤ bound) :
    step.agree (Rules.meetSome q pairs) (Rules.meetSome r pairs') := by
  induction lists with
  | nil => exact step.refl []
  | @cons p p' rest rest' head tail ih =>
      have others := ih fun p member => below p (List.mem_cons_of_mem _ member)
      refine step.bindOption (agrees.meet head.1 head.2 (below p List.mem_cons_self)) others ?_
      intro ty ty' equal
      exact step.bind others fun tys tys' equals =>
        step.pure (Precision.cons_iff.mpr ⟨equal, equals⟩)

theorem meetEach (agrees : Agreement step q r bound) {pairs pairs' : List (Ty × Ty)}
    (lists : List.Forall₂
      (fun p p' => step.precision.same p.1 p'.1 ∧ step.precision.same p.2 p'.2) pairs pairs')
    (below : ∀ p ∈ pairs, p.1.height + p.2.height ≤ bound) :
    step.agree (Rules.meetEach q pairs) (Rules.meetEach r pairs') := by
  induction lists with
  | nil => exact step.refl (some [])
  | @cons p p' rest rest' head tail ih =>
      have others := ih fun p member => below p (List.mem_cons_of_mem _ member)
      refine step.bindOption (agrees.meet head.1 head.2 (below p List.mem_cons_self))
        (step.refl none) ?_
      intro ty ty' equal
      exact step.bindOption others (step.refl none) fun tys tys' equals =>
        step.pure (Precision.some_iff.mpr (Precision.cons_iff.mpr ⟨equal, equals⟩))

theorem meetFields (agrees : Agreement step q r bound) {entries entries' : List (String × Ty)}
    (fields : step.precision.same entries entries') {others others' : List (String × Ty)}
    (lists : step.precision.same others others')
    (below : Ty.tallestEntry entries + Ty.tallestEntry others ≤ bound) :
    step.agree (Rules.meetFields q entries others) (Rules.meetFields r entries' others') := by
  have pairs := Precision.list_iff.mp lists
  clear lists
  induction pairs with
  | nil => exact step.refl []
  | @cons p p' rest rest' head tail ih =>
      obtain ⟨key, other⟩ := p
      obtain ⟨key', other'⟩ := p'
      obtain ⟨rfl, equal⟩ := Precision.entry_iff.mp head
      simp only [Ty.tallestEntry] at below
      have remaining := ih (by omega)
      simp only [Rules.meetFields]
      rcases Precision.option_cases (Precision.get? fields key) with
        ⟨absent, absent'⟩ | ⟨field, field', found, found', same⟩
      · rw [absent, absent']
        exact remaining
      · rw [found, found']
        have lower := Ty.height_le_tallestEntry (Keyed.mem_of_get? found)
        refine step.bindOption (agrees.meet same equal (by omega)) remaining ?_
        intro ty ty' types
        refine step.bind remaining fun tys tys' equals => step.pure ?_
        exact Precision.cons_iff.mpr ⟨Precision.entry_iff.mpr ⟨rfl, types⟩, equals⟩

theorem crossPairs_related {as as' bs bs' : List Ty} (left : step.precision.same as as')
    (right : step.precision.same bs bs') :
    List.Forall₂ (fun p p' => step.precision.same p.1 p'.1 ∧ step.precision.same p.2 p'.2)
      (Rules.crossPairs as bs) (Rules.crossPairs as' bs') := by
  have rights := Precision.list_iff.mp right
  have lefts := Precision.list_iff.mp left
  clear left
  induction lefts with
  | nil => exact .nil
  | cons head tail ih =>
      refine List.rel_append ?_ ih
      exact List.rel_map (fun _ _ equal => ⟨head, equal⟩) rights

theorem meetAll (agrees : Agreement step q r bound) {as as' bs bs' : List Ty}
    (left : step.precision.same as as')
    (right : step.precision.same bs bs')
    (below : ∀ a ∈ Ty.branchesOf as, ∀ b ∈ Ty.branchesOf bs, a.height + b.height ≤ bound) :
    step.agree (Rules.meetAll q as bs) (Rules.meetAll r as' bs') := by
  have pairs := crossPairs_related (Precision.branchesOf left) (Precision.branchesOf right)
  apply step.bind (agrees.meetSome pairs ?_)
  · intro found found' equal
    exact step.pure (Precision.collapse equal)
  · rintro ⟨a, b⟩ member
    simp only [Rules.crossPairs, List.mem_flatMap, List.mem_map, Prod.mk.injEq] at member
    obtain ⟨_, first, _, second, rfl, rfl⟩ := member
    exact below _ first _ second

theorem parameter_types_related {precision : Precision} {ps ps' : List Parameter}
    (parameters : precision.same ps ps') :
    List.Forall₂ precision.same (ps.map (·.ty)) (ps'.map (·.ty)) := by
  rw [List.forall₂_map_left_iff, List.forall₂_map_right_iff]
  exact (Precision.list_iff.mp parameters).imp fun _ _ same => Precision.parameter_ty same

theorem retyped_same {precision : Precision} {ps ps' : List Parameter}
    (parameters : precision.same ps ps') {tys tys' : List Ty} (types : precision.same tys tys') :
    precision.same (ps.zipWith (fun p ty => { p with ty := ty }) tys)
      (ps'.zipWith (fun p ty => { p with ty := ty }) tys') := by
  rw [← List.map_uncurry_zip_eq_zipWith, ← List.map_uncurry_zip_eq_zipWith, Precision.list_iff]
  refine List.rel_map ?_ (zip_related (Precision.list_iff.mp parameters)
    (Precision.list_iff.mp types))
  rintro ⟨p, ty⟩ ⟨p', ty'⟩ ⟨same, equal⟩
  exact Precision.parameter_retyped same equal

theorem meetFunctions (agrees : Agreement step q r bound) {ps ps' rs rs' : List Parameter}
    {a a' b b' : Ty} (left : step.precision.same ps ps') (result : step.precision.same a a')
    (right : step.precision.same rs rs') (other : step.precision.same b b')
    (below : max (Parameter.tallest ps) a.height + max (Parameter.tallest rs) b.height ≤ bound) :
    step.agree (Rules.meetFunctions q ps a rs b) (Rules.meetFunctions r ps' a' rs' b') := by
  have lefts := Precision.list_iff.mp left
  have rights := Precision.list_iff.mp right
  simp only [Rules.meetFunctions]
  rw [lefts.length_eq, rights.length_eq]
  split
  · have pairs := zip_related (parameter_types_related left) (parameter_types_related right)
    refine step.bindOption (agrees.meetEach pairs ?_) (step.refl none) fun tys tys' equals => ?_
    · rintro ⟨x, y⟩ member
      obtain ⟨first, second⟩ := List.of_mem_zip member
      obtain ⟨p, inside, rfl⟩ := List.mem_map.mp first
      obtain ⟨s, insideOther, rfl⟩ := List.mem_map.mp second
      have lower := Parameter.height_le_tallest inside
      have lowerOther := Parameter.height_le_tallest insideOther
      simp only
      omega
    · refine step.bindOption (agrees.meet result other (by omega)) (step.refl none) ?_
      intro ty ty' equal
      refine step.pure (Precision.some_iff.mpr ?_)
      exact Precision.shape_iff.mpr (.function (retyped_same left equals) equal)
  · exact step.refl none

theorem meetShapes (agrees : Agreement step q r bound) {s t s' t' : Shape}
    (left : step.precision.same s s') (right : step.precision.same t t')
    (below : s.height + t.height ≤ bound + 2) :
    step.agree (Rules.meetShapes q s t) (Rules.meetShapes r s' t') := by
  have lefts := Precision.shape_iff.mp left
  have rights := Precision.shape_iff.mp right
  cases lefts <;> cases rights <;> simp only [Rules.meetShapes] <;>
    first
      | exact step.refl none
      | exact step.refl (some _)
      | simp only [Shape.height] at below
  case named.named name ps ps' params other rs rs' others =>
    refine step.bindBool (agrees.shapeSubset left right ?_) fun holds => ?_
    · simp only [Shape.height]
      omega
    cases holds with
    | true => exact step.pure (Precision.some_iff.mpr left)
    | false => exact step.refl none
  case function.function ps ps' a a' params result rs rs' b b' others otherResult =>
    exact agrees.meetFunctions params result others otherResult (by omega)
  case list.list a a' element b b' otherElement =>
    refine step.bindOption (agrees.meet element otherElement (by omega)) (step.refl none) ?_
    exact fun ty ty' equal =>
      step.pure (Precision.some_iff.mpr (Precision.shape_iff.mpr (.list equal)))
  case tuple.tuple as as' elements bs bs' others =>
    have lists := Precision.list_iff.mp elements
    have otherLists := Precision.list_iff.mp others
    rw [lists.length_eq, otherLists.length_eq]
    split
    · refine step.bindOption (agrees.meetEach (zip_related lists otherLists) ?_) (step.refl none) ?_
      · rintro ⟨a, b⟩ member
        have inside := List.of_mem_zip member
        have lower := Ty.height_le_tallest inside.1
        have lowerOther := Ty.height_le_tallest inside.2
        simp only
        omega
      · exact fun tys tys' equals =>
          step.pure (Precision.some_iff.mpr (Precision.shape_iff.mpr (.tuple equals)))
    · exact step.refl none
  case dictionary.dictionary entries entries' fields others others' needs =>
    refine step.bind (agrees.meetFields fields needs (by omega)) fun found found' equals => ?_
    cases Precision.list_iff.mp equals with
    | nil => exact step.refl none
    | cons _ _ =>
        apply step.pure
        exact Precision.some_iff.mpr (Precision.shape_iff.mpr (.dictionary equals))

theorem meetUnions (agrees : Agreement step q r bound) {a b c d : Ty}
    (left : step.precision.same a c) (right : step.precision.same b d)
    (union : a.isUnion = true ∨ b.isUnion = true)
    (below : a.height + b.height ≤ bound + 1) :
    step.agree (Rules.meetAll q [a] [b]) (Rules.meetAll r [c] [d]) := by
  refine agrees.meetAll (Precision.singleton left) (Precision.singleton right) ?_
  intro x member y inside
  simp only [Ty.branchesOf, List.append_nil] at member inside
  have first := Ty.height_of_mem_branches member
  have second := Ty.height_of_mem_branches inside
  rcases union with union | union
  · have lower := Ty.height_of_mem_union union member
    omega
  · have lower := Ty.height_of_mem_union union inside
    omega

theorem meetRule (agrees : Agreement step q r bound) {a b c d : Ty} (left : step.precision.same a c)
    (right : step.precision.same b d) (below : a.height + b.height ≤ bound + 1) :
    step.agree (Rules.meet q a b) (Rules.meet r c d) := by
  have lefts := Precision.ty_iff.mp left
  have rights := Precision.ty_iff.mp right
  cases lefts with
  | union branches =>
      have distributed := agrees.meetUnions left right (.inl rfl) below
      cases rights <;> exact distributed
  | @literal u u' payload shape =>
      cases rights with
      | literal otherPayload otherShape =>
          simp only [Ty.height, Value.height_eq] at below
          apply step.choose _ left
          exact agrees.valueEqual payload shape otherPayload otherShape (by omega)
      | union branches => exact agrees.meetUnions left right (.inr rfl) below
      | resolved otherShape =>
          refine step.choose (agrees.subset left right ?_) left
          simp only [Ty.subsetRank, Ty.height, Value.height_eq] at below ⊢
          omega
  | resolved shape =>
      cases rights with
      | literal otherPayload otherShape =>
          refine step.choose (agrees.subset right left ?_) right
          simp only [Ty.subsetRank, Ty.height, Value.height_eq] at below ⊢
          omega
      | union branches => exact agrees.meetUnions left right (.inr rfl) below
      | resolved otherShape =>
          simp only [Ty.height] at below
          refine step.bindOption (agrees.meetShapes shape otherShape (by omega)) (step.refl none) ?_
          exact fun s s' equal =>
            step.pure (Precision.some_iff.mpr (Precision.ty_iff.mpr (.resolved equal)))

theorem typesMatch (agrees : Agreement step q r bound) {a b c d : Ty}
    (left : step.precision.same a c) (right : step.precision.same b d)
    (below : a.height + b.height ≤ bound) :
    step.agree (Rules.typesMatch q a b) (Rules.typesMatch r c d) :=
  step.bindOption (agrees.meet left right below) (step.refl false) fun _ _ _ => step.refl true

theorem zero : Agreement step q r 0 := by
  constructor
  · intro a b _ _ _ _ low
    have := a.subsetRank_pos b
    omega
  · intro a b _ _ _ _ low
    have := a.height_pos
    omega

/-- The rules applied again and again agree as far as the steps on both sides reach, if what
is done around each application keeps the agreement on operands that the steps reach. -/
theorem tower {Q : Nat → Queries m} {R : Nat → Queries n}
    (subset : ∀ {k l a b c d}, step.precision.same a c → step.precision.same b d →
      a.subsetRank b ≤ k + 1 → c.subsetRank d ≤ l + 1 →
      step.agree (Rules.subset (Q k) a b) (Rules.subset (R l) c d) →
      step.agree ((Q (k + 1)).subset a b) ((R (l + 1)).subset c d))
    (meet : ∀ {k l a b c d}, step.precision.same a c → step.precision.same b d →
      a.height + b.height ≤ k + 1 → c.height + d.height ≤ l + 1 →
      step.agree (Rules.meet (Q k) a b) (Rules.meet (R l) c d) →
      step.agree ((Q (k + 1)).meet a b) ((R (l + 1)).meet c d)) :
    ∀ {bound steps more : Nat}, bound ≤ steps → bound ≤ more →
      Agreement step (Q steps) (R more) bound := by
  intro bound
  induction bound with
  | zero =>
      intro steps more _ _
      exact zero
  | succ bound ih =>
      intro steps more enough enoughMore
      obtain ⟨k, rfl⟩ : ∃ k, steps = k + 1 := ⟨steps - 1, by omega⟩
      obtain ⟨l, rfl⟩ : ∃ l, more = l + 1 := ⟨more - 1, by omega⟩
      have below : Agreement step (Q k) (R l) bound := ih (by omega) (by omega)
      constructor
      · intro a b c d left right low
        have rank := Ty.subsetRank_equal (Precision.equal left) (Precision.equal right)
        exact subset left right (by omega) (by omega) (below.subsetRule left right low)
      · intro a b c d left right low
        have lefts := Ty.height_equal (Precision.equal left)
        have rights := Ty.height_equal (Precision.equal right)
        exact meet left right (by omega) (by omega) (below.meetRule left right low)

end Agreement

def Agree {m n : Type → Type} [Monad m] [Monad n] (step : Lockstep m n) (q : Queries m)
    (r : Queries n) : Prop :=
  ∀ bound, Agreement step q r bound

namespace Agree

variable {m n : Type → Type} [Monad m] [Monad n] {step : Lockstep m n} {q : Queries m}
  {r : Queries n}

theorem meet (agrees : Agree step q r) {a b c d : Ty} (left : step.precision.same a c)
    (right : step.precision.same b d) : step.agree (q.meet a b) (r.meet c d) :=
  (agrees _).meet left right (Nat.le_refl _)

theorem meetFrom (agrees : Agree step q r) {a c : Ty} (left : step.precision.same a c)
    {bs ds : List Ty} (right : step.precision.same bs ds) :
    step.agree (Rules.meetFrom q a bs) (Rules.meetFrom r c ds) := by
  have rights := Precision.list_iff.mp right
  clear right
  induction rights generalizing a c with
  | nil => exact step.pure (Precision.some_iff.mpr left)
  | cons head tail ih =>
      exact step.bindOption (agrees.meet left head) (step.refl none) fun _ _ common => ih common

theorem reduce (agrees : Agree step q r) {a c : Ty} (left : step.precision.same a c) :
    step.agree (Rules.reduce q a) (Rules.reduce r c) := by
  have lefts := Precision.ty_iff.mp left
  cases lefts with
  | literal payload shape => exact step.pure (Precision.some_iff.mpr left)
  | @union parts parts' branches =>
      have flat := Precision.branchesOf branches
      simp only [Rules.reduce]
      generalize Ty.branchesOf parts = bs at flat ⊢
      generalize Ty.branchesOf parts' = ds at flat ⊢
      cases Precision.list_iff.mp flat with
      | nil => exact step.refl none
      | cons head tail => exact agrees.meetFrom head (Precision.list_iff.mpr tail)
  | resolved shape => exact step.pure (Precision.some_iff.mpr left)

theorem resolvedEqual (agrees : Agree step q r) (a b : Ty) :
    step.agree (Rules.resolvedEqual q a b) (Rules.resolvedEqual r a b) := by
  cases a with
  | literal _ => exact step.refl false
  | union _ => exact step.refl false
  | resolved s =>
      cases b with
      | literal _ => exact step.refl false
      | union _ => exact step.refl false
      | resolved t =>
          apply (agrees (s.height + t.height)).shapeSubset (Precision.refl s) (Precision.refl t)
          omega

theorem answerBy (agrees : Agree step q r) [LawfulMonad m] [LawfulMonad n] (question : Question) :
    step.agree (question.answerBy q) (question.answerBy r) := by
  have truth : ∀ {x : m Bool} {y : n Bool}, step.agree x y →
      step.agree (Answer.truth <$> x) (Answer.truth <$> y) := by
    intro x y answers
    rw [map_eq_pure_bind, map_eq_pure_bind]
    exact step.bind answers fun _ _ equal => step.pure (Precision.truth_iff.mpr equal)
  have type : ∀ {x : m (Option Ty)} {y : n (Option Ty)}, step.agree x y →
      step.agree (Answer.type <$> x) (Answer.type <$> y) := by
    intro x y answers
    rw [map_eq_pure_bind, map_eq_pure_bind]
    exact step.bind answers fun _ _ equal => step.pure (Precision.type_iff.mpr equal)
  cases question with
  | subset a b =>
      apply truth
      exact (agrees _).subset_of_height (Precision.refl a) (Precision.refl b) (Nat.le_refl _)
  | typeEqual a b =>
      apply truth
      exact (agrees _).typeEqual (Precision.refl a) (Precision.refl b) (Nat.le_refl _)
  | resolvedEqual a b => exact truth (agrees.resolvedEqual a b)
  | valueEqual u v =>
      apply truth
      apply (agrees (u.shape.height + v.shape.height)).valueEqual (Precision.refl _)
        (Precision.refl _) (Precision.refl _) (Precision.refl _)
      omega
  | parametersEqual ps rs =>
      apply truth
      exact (agrees _).parametersEqual (Precision.refl ps) (Precision.refl rs) (Nat.le_refl _)
  | meet a b => exact type (agrees.meet (Precision.refl a) (Precision.refl b))
  | meetAll as bs =>
      apply type
      apply (agrees (Ty.tallest as + Ty.tallest bs)).meetAll (Precision.refl as) (Precision.refl bs)
      intro a member b inside
      exact Nat.add_le_add (Ty.height_of_mem_branchesOf member) (Ty.height_of_mem_branchesOf inside)
  | reduce ty => exact type (agrees.reduce (Precision.refl ty))
  | typesMatch a b =>
      apply truth
      exact (agrees _).typesMatch (Precision.refl a) (Precision.refl b) (Nat.le_refl _)

end Agree

end StructuralTypes
