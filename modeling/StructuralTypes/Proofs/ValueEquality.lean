import StructuralTypes.Proofs.Widening
import StructuralTypes.Proofs.Width

/-!
Equality of values. Values are equal if their payloads are and the classifier of the first passes
the ground step against that of the second, so equality has the laws of payloads as far as the
ground step has them. The ground step holds of a classifier and itself unless a field of a record
does not match itself, it composes where there are no dictionaries, and it has a direction where an
element, a position, a result or a record may widen. Rigid classifiers leave no room for that.
-/

namespace StructuralTypes

mutual

def Ty.rigid (functions : Bool) : Ty → Bool
  | .resolved shape => shape.rigid functions
  | _ => false

/-- No union, literal or dictionary stands as an element, a position or a result, and no function
unless `functions` says so. The types of parameters may be any. -/
def Shape.rigid (functions : Bool) : Shape → Bool
  | .function _ result => functions && result.rigid functions
  | .list element => element.rigid functions
  | .tuple elements => Ty.allRigid functions elements
  | .dictionary _ => false
  | _ => true

def Ty.allRigid (functions : Bool) : List Ty → Bool
  | [] => true
  | ty :: rest => ty.rigid functions && Ty.allRigid functions rest

end

theorem Ty.allRigid_iff (functions : Bool) (tys : List Ty) :
    Ty.allRigid functions tys = true ↔ ∀ ty ∈ tys, ty.rigid functions = true := by
  induction tys with
  | nil => simp [Ty.allRigid]
  | cons ty rest ih => simp [Ty.allRigid, ih]

theorem Ty.shape_of_rigid {functions : Bool} {a : Ty} (rigid : a.rigid functions = true) :
    ∃ shape, a = .resolved shape ∧ shape.rigid functions = true := by
  cases a with
  | literal value => cases rigid
  | union parts => cases rigid
  | resolved shape => exact ⟨shape, rfl, rigid⟩

namespace Reference

def valueEqual (u v : Value) : Bool := (Rules.valueEqual queries u v).run

theorem valueEqual_eq_true_iff (u v : Value) : valueEqual u v = true ↔
    ShapeBelow u.shape v.shape ∧ (u.payload == v.payload) = true :=
  valueEqual_iff u v

theorem ShapeBelow.congr {s t s' t' : Shape} (left : s == s') (right : t == t')
    (below : ShapeBelow s t) : ShapeBelow s' t' := by
  have agrees : (shapeSubset s t == shapeSubset s' t') = true :=
    ((queries_agree .equality) _).shapeSubset left right (Nat.le_add_right _ 2)
  rw [← shapeSubset_iff] at below ⊢
  rw [← eq_of_beq agrees]
  exact below

theorem shapeBelow_self_iff {s : Shape} (ordered : (Ty.resolved s).inKeyOrder = true) :
    ShapeBelow s s ↔ ∀ record : Record, s = .dictionary record.entries → record.SelfMatching := by
  constructor
  · rintro below record rfl
    exact record.ground_self_iff.mp below
  · intro matching
    cases s with
    | dictionary entries =>
        have sorted : Keyed.Sorted entries := of_decide_eq_true ordered
        exact (Record.ground_self_iff ⟨entries, sorted⟩).mpr (matching ⟨entries, sorted⟩ rfl)
    | _ => exact ShapeBelow.of_equal (BEq.refl _) nofun

theorem ShapeBelow.trans {s t r : Shape} (freeS : s.dictionaryFree = true)
    (freeT : t.dictionaryFree = true) (freeR : r.dictionaryFree = true) (first : ShapeBelow s t)
    (second : ShapeBelow t r) : ShapeBelow s r :=
  TransitiveBelow.shapeBelow (transitiveBelow _) freeS freeT freeR (Nat.le_refl _) first second

variable {n : Nat}

/-- The ground step may be turned round between rigid shapes, the first of a height up to `n`. -/
def TurnsRigid (n : Nat) : Prop :=
  ∀ {s t : Shape}, s.rigid true = true → t.rigid true = true → s.height ≤ n → ShapeBelow s t →
    ShapeBelow t s

theorem TurnsRigid.subset (ih : TurnsRigid n) {a b : Ty} (rigidA : a.rigid true = true)
    (rigidB : b.rigid true = true) (low : a.height ≤ n) (below : subset a b = true) :
    Reference.subset b a = true := by
  obtain ⟨s, rfl, rigidS⟩ := Ty.shape_of_rigid rigidA
  obtain ⟨t, rfl, rigidT⟩ := Ty.shape_of_rigid rigidB
  rw [subset_resolved_iff] at below ⊢
  rcases below with same | step
  · exact .inl (BEq.symm same)
  · exact .inr (ih rigidS rigidT low step)

theorem turnsRigid (n : Nat) : TurnsRigid n := by
  induction n with
  | zero =>
      intro s t _ _ low
      exact absurd (Nat.lt_of_lt_of_le s.height_pos low) (Nat.lt_irrefl 0)
  | succ n ih =>
      intro s t rigidS rigidT low below
      have lower : ∀ part ∈ s.parts, part.height ≤ n := by
        intro part member
        have less := Shape.height_of_mem_parts member
        omega
      cases below with
      | number => exact .number
      | text => exact .text
      | logic => exact .logic
      | void => exact .void
      | named parameters => exact .named parameters.symm
      | function parameters result =>
          exact .function parameters.symm
            (ih.subset rigidS rigidT (lower _ List.mem_cons_self) result)
      | list element => exact .list (ih.subset rigidS rigidT (lower _ List.mem_cons_self) element)
      | tuple elements =>
          have rigids := (Ty.allRigid_iff true _).mp rigidS
          have others := (Ty.allRigid_iff true _).mp rigidT
          refine .tuple (forall₂_turn elements fun a inA b inB => ?_)
          exact ih.subset (rigids a inA) (others b inB) (lower a inA)
      | dictionary fields => cases rigidS

theorem shapeBelow_of_keys {entries others : List (String × Ty)}
    (tidyE : (Ty.resolved (.dictionary entries)).Tidy)
    (tidyO : (Ty.resolved (.dictionary others)).Tidy)
    (keys : Keyed.keys entries = Keyed.keys others)
    (below : ShapeBelow (.dictionary entries) (.dictionary others)) :
    ShapeBelow (.dictionary others) (.dictionary entries) := by
  cases below with
  | dictionary fields =>
      refine .dictionary fun key field member => ?_
      have shared : key ∈ Keyed.keys others := keys ▸ List.mem_map_of_mem member
      obtain ⟨⟨_, needed⟩, inside, rfl⟩ := List.mem_map.mp shared
      obtain ⟨copy, found, matched⟩ := fields _ needed inside
      rw [Keyed.get?_of_mem tidyE.sorted member] at found
      cases found
      refine ⟨needed, Keyed.get?_of_mem tidyO.sorted inside, ?_⟩
      exact typesMatch_symm (tidyE.part (List.mem_map_of_mem member))
        (tidyO.part (List.mem_map_of_mem inside)) matched

/-- Pairs of classifiers between which the ground step has no direction. -/
inductive Undirected : Shape → Shape → Prop where
  | equal {s t : Shape} (same : s == t) : Undirected s t
  | rigid {s t : Shape} (left : s.rigid true = true) (right : t.rigid true = true) : Undirected s t
  | records {entries others : List (String × Ty)}
      (left : (Ty.resolved (.dictionary entries)).Tidy)
      (right : (Ty.resolved (.dictionary others)).Tidy)
      (keys : Keyed.keys entries = Keyed.keys others) :
      Undirected (.dictionary entries) (.dictionary others)

theorem Undirected.symm {s t : Shape} (undirected : Undirected s t) : Undirected t s := by
  cases undirected with
  | equal same => exact .equal (BEq.symm same)
  | rigid left right => exact .rigid right left
  | records left right keys => exact .records right left keys.symm

theorem Undirected.turn {s t : Shape} (undirected : Undirected s t) (below : ShapeBelow s t) :
    ShapeBelow t s := by
  cases undirected with
  | equal same => exact below.congr same (BEq.symm same)
  | rigid left right => exact turnsRigid _ left right (Nat.le_refl _) below
  | records left right keys => exact shapeBelow_of_keys left right keys below

theorem Undirected.shapeBelow_iff {s t : Shape} (undirected : Undirected s t) :
    ShapeBelow s t ↔ ShapeBelow t s :=
  ⟨undirected.turn, undirected.symm.turn⟩

variable {u v w : Value}

theorem valueEqual_comm (undirected : Undirected u.shape v.shape) :
    valueEqual u v = valueEqual v u := by
  rw [Bool.eq_iff_iff, valueEqual_eq_true_iff, valueEqual_eq_true_iff, undirected.shapeBelow_iff,
    BEq.comm]

theorem valueEqual_trans (freeU : u.shape.dictionaryFree = true)
    (freeV : v.shape.dictionaryFree = true) (freeW : w.shape.dictionaryFree = true)
    (first : valueEqual u v = true) (second : valueEqual v w = true) : valueEqual u w = true := by
  rw [valueEqual_eq_true_iff] at first second ⊢
  constructor
  · exact first.1.trans freeU freeV freeW second.1
  · exact PartialEquivBEq.trans first.2 second.2

theorem valueEqual_self_iff (ordered : (Ty.resolved u.shape).inKeyOrder = true) :
    valueEqual u u = true ↔
      ∀ record : Record, u.shape = .dictionary record.entries → record.SelfMatching := by
  rw [valueEqual_eq_true_iff, shapeBelow_self_iff ordered]
  simp

theorem subset_literals_comm (undirected : Undirected u.shape v.shape) :
    subset (.literal u) (.literal v) = subset (.literal v) (.literal u) := by
  rw [Bool.eq_iff_iff, subset_literals_iff, subset_literals_iff, undirected.shapeBelow_iff,
    BEq.comm, BEq.comm (a := u.shape)]

theorem typesMatch_literals (u v : Value) :
    typesMatch (.literal u) (.literal v) = valueEqual u v := by
  rw [Bool.eq_iff_iff, typesMatch_literals_iff, valueEqual_eq_true_iff]

end Reference

theorem Value.inKeyOrder_of_wellFormed {u : Value} (formed : u.wellFormed = true) :
    (Ty.resolved u.shape).inKeyOrder = true := by
  obtain ⟨payload, shape⟩ := u
  simp only [Value.wellFormed, Bool.and_eq_true] at formed
  cases shape with
  | dictionary entries =>
      have entriesFormed := formed.2
      simp only [Shape.wellFormed, Bool.and_eq_true] at entriesFormed
      exact entriesFormed.1
  | _ => rfl

/-- A value is equal to itself unless its classifier is a record with a field that does not match
itself. Equality composes where there are no dictionaries, and it has no direction between
classifiers that leave no room for widening; literals of such values are below each other in both
directions or in neither, and have a meet in both orders or in neither. -/
theorem value_equality_up_to_direction [PairKey] :
    (∀ u : Value, u.wellFormed = true →
      (Reference.valueEqual u u = true ↔
        ∀ record : Record, u.shape = .dictionary record.entries → record.SelfMatching)) ∧
    (∀ u v w : Value, u.shape.dictionaryFree = true → v.shape.dictionaryFree = true →
      w.shape.dictionaryFree = true → Reference.valueEqual u v = true →
      Reference.valueEqual v w = true → Reference.valueEqual u w = true) ∧
    (∀ u v : Value, Reference.Undirected u.shape v.shape →
      (Question.valueEqual u v).Concordant (.valueEqual v u) ∧
      (Question.subset (.literal u) (.literal v)).Concordant
        (.subset (.literal v) (.literal u)) ∧
      (Question.meet (.literal u) (.literal v)).Concordant (.meet (.literal v) (.literal u))) ∧
    ∀ first second third : Context, first.Reached → second.Reached → third.Reached →
      ∀ u v w : Value,
        (u.wellFormed = true → third.Settles (.valueEqual u u) →
          (third.Affirms (.valueEqual u u) ↔
            ∀ record : Record, u.shape = .dictionary record.entries → record.SelfMatching)) ∧
        (u.shape.dictionaryFree = true → v.shape.dictionaryFree = true →
          w.shape.dictionaryFree = true → first.Affirms (.valueEqual u v) →
          second.Affirms (.valueEqual v w) → third.Settles (.valueEqual u w) →
          third.Affirms (.valueEqual u w)) := by
  have self : ∀ u : Value, u.wellFormed = true → (Reference.valueEqual u u = true ↔
      ∀ record : Record, u.shape = .dictionary record.entries → record.SelfMatching) :=
    fun u formed => Reference.valueEqual_self_iff (Value.inKeyOrder_of_wellFormed formed)
  refine ⟨self, fun u v w => Reference.valueEqual_trans, ?_, ?_⟩
  · intro u v undirected
    have equal := Reference.valueEqual_comm undirected
    refine ⟨?_, ?_, ?_⟩
    · exact Question.concordant_iff.mpr equal
    · exact Question.concordant_iff.mpr (Reference.subset_literals_comm undirected)
    · rw [← Reference.typesMatch_literals, ← Reference.typesMatch_literals] at equal
      exact Question.concordant_iff.mpr equal
  · intro first second third reached reachedSecond reachedThird u v w
    constructor
    · intro formed settles
      rw [reachedThird.affirms_iff settles]
      exact self u formed
    · intro freeU freeV freeW one two settles
      have uv : Reference.valueEqual u v = true := reached.plain_of_affirms rfl one
      have vw : Reference.valueEqual v w = true := reachedSecond.plain_of_affirms rfl two
      exact reachedThird.affirms_of_plain settles
        (Reference.valueEqual_trans freeU freeV freeW uv vw)

namespace Value

def noneOf (item : Ty) : Value := ⟨.list [], .list item⟩

def keeping (field : Ty) (payload : Payload) : Value :=
  ⟨.dictionary [("kept", payload)], .dictionary [("kept", field)]⟩

end Value

section

open Value BasicTy

theorem value_equality_up_to_direction_boxes :
    let boxes := noneOf (box (.union [.number, .text]))
    let others := noneOf (box (.union [.text, .number, .text]))
    let last := noneOf (box (.union [.union [.text], .number]))
    let context := Context.new ⟨false, 8, 0⟩
    Reference.Undirected boxes.shape others.shape ∧
    Reference.valueEqual boxes others = true ∧ Reference.valueEqual others last = true ∧
    Reference.valueEqual others boxes = true ∧ Reference.valueEqual boxes last = true ∧
    Reference.subset (.literal others) (.literal boxes) = true ∧
    boxes.wellFormed = true ∧ context.Affirms (.valueEqual boxes boxes) ∧
    context.Affirms (.valueEqual boxes last) ∧
    context.Affirms (.meet (.literal others) (.literal boxes)) := by
  intro boxes others last context
  obtain ⟨-, trans, undirected, contexts⟩ := value_equality_up_to_direction
  have rigid : Reference.Undirected boxes.shape others.shape := .rigid (by decide) (by decide)
  obtain ⟨equal, below, meets⟩ := undirected boxes others rigid
  have reached : context.Reached := Context.reached_new ⟨false, 8, 0⟩
  have one : Reference.valueEqual boxes others = true := by cbv
  have two : Reference.valueEqual others last = true := by cbv
  have formed : boxes.wellFormed = true := by cbv
  have literals : Reference.subset (.literal boxes) (.literal others) = true := by cbv
  obtain ⟨self, joined⟩ :=
    contexts context context context reached reached reached boxes others last
  refine ⟨rigid, one, two, equal.plain.symm.trans one,
    trans boxes others last (by decide) (by decide) (by decide) one two,
    below.plain.symm.trans literals, formed, ?_, ?_, ?_⟩
  · refine (self formed (by cbv)).mpr fun record same => ?_
    cases same
  · exact joined (by decide) (by decide) (by decide) (by cbv) (by cbv) (by cbv)
  · exact (meets.asked context context reached reached (by cbv) (by cbv)).mp (by cbv)

/-- A record with a field that does not match itself is not equal to itself, an empty list of
numbers counts as one of numbers or texts but not the other way, and two records are both equal to
one that stands between them but not to each other. -/
theorem value_equality_has_direction :
    let blank := keeping (.resolved (.dictionary [])) (.dictionary [])
    let numbers := noneOf .number
    let either := noneOf .numberOrText
    let number := keeping (.list .number) (.list [])
    let choice := keeping (.list .numberOrText) (.list [])
    let text := keeping (.list .text) (.list [])
    Reference.valueEqual blank blank = false ∧
    Reference.valueEqual numbers either = true ∧ Reference.valueEqual either numbers = false ∧
    Reference.subset (.literal numbers) (.literal either) = true ∧
    Reference.subset (.literal either) (.literal numbers) = false ∧
    (Reference.meet (.literal numbers) (.literal either)).isSome = true ∧
    (Reference.meet (.literal either) (.literal numbers)).isSome = false ∧
    Reference.valueEqual number choice = true ∧ Reference.valueEqual choice text = true ∧
    Reference.valueEqual number text = false ∧
    Query.once (Query.valueEqual blank blank) = false ∧
    Query.once (Query.valueEqual numbers either) = true ∧
    Query.once (Query.valueEqual either numbers) = false := by
  refine ⟨?_, ?_, ?_, ?_, ?_, ?_, ?_, ?_, ?_, ?_, ?_, ?_, ?_⟩ <;> cbv

end

end StructuralTypes
