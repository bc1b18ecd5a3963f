import StructuralTypes.Proofs.Reference

/-!
Equality may stand in for identity where answers are remembered. It is an equivalence that
tells numbers apart by their bits, but for the two zeros and the not-a-number patterns, in
whatever they are nested; equal data feed a hash the same words, so that equal operand pairs
share a bucket; and the plain answers do not tell equal operands apart.
-/

namespace StructuralTypes

namespace Number

theorem isNaN_of_isZero {n : Number} (zero : n.isZero = true) : n.isNaN = false := by
  simp only [isZero, isNaN, Bool.and_eq_true, beq_iff_eq] at zero ⊢
  rw [zero.1]
  rfl

theorem canonical_cases (n : Number) :
    (n.isZero = true ∧ n.canonical = ⟨0⟩) ∨
    (n.isNaN = true ∧ n.canonical = ⟨0x7ff8000000000000⟩) ∨
    (n.isZero = false ∧ n.isNaN = false ∧ n.canonical = n) := by
  cases zero : n.isZero with
  | true => exact .inl ⟨rfl, by rw [canonical, key, if_pos zero]⟩
  | false =>
      have nonzero : ¬ n.isZero = true := Bool.eq_false_iff.mp zero
      cases nan : n.isNaN with
      | true => exact .inr (.inl ⟨rfl, by rw [canonical, key, if_neg nonzero, if_pos nan]⟩)
      | false =>
          have number : ¬ n.isNaN = true := Bool.eq_false_iff.mp nan
          exact .inr (.inr ⟨rfl, rfl, by rw [canonical, key, if_neg nonzero, if_neg number]⟩)

theorem canonical_canonical (n : Number) : n.canonical.canonical = n.canonical := by
  rcases canonical_cases n with ⟨-, form⟩ | ⟨-, form⟩ | ⟨-, -, form⟩
  · rw [form]
    rfl
  · rw [form]
    rfl
  · rw [form, form]

/-- Numbers are told apart by their bits, but for zeros and not-a-number patterns. -/
theorem same_iff_bits (a b : Number) : a.same b = true ↔
    a.bits = b.bits ∨ (a.isZero = true ∧ b.isZero = true) ∨ (a.isNaN = true ∧ b.isNaN = true) := by
  rw [same_iff]
  constructor
  · intro forms
    rcases canonical_cases a with ⟨zero, left⟩ | ⟨nan, left⟩ | ⟨nonzero, number, left⟩ <;>
      rcases canonical_cases b with ⟨zero', right⟩ | ⟨nan', right⟩ | ⟨nonzero', number', right⟩ <;>
      rw [left, right] at forms
    · exact .inr (.inl ⟨zero, zero'⟩)
    · exact absurd forms (by decide)
    · exact absurd (forms ▸ nonzero') (by decide)
    · exact absurd forms (by decide)
    · exact .inr (.inr ⟨nan, nan'⟩)
    · exact absurd (forms ▸ number') (by decide)
    · exact absurd (forms ▸ nonzero) (by decide)
    · exact absurd (forms ▸ number) (by decide)
    · exact .inl (congrArg bits forms)
  · rintro (bits | ⟨left, right⟩ | ⟨left, right⟩)
    · exact congrArg canonical (congrArg mk bits)
    · simp only [canonical, key, left, right, if_true]
    · have nonzero : ∀ {n : Number}, n.isNaN = true → ¬ n.isZero = true := by
        intro n nan zero
        rw [isNaN_of_isZero zero] at nan
        cases nan
      simp only [canonical, key, left, right, if_neg (nonzero left), if_neg (nonzero right),
        if_true]

end Number

namespace Payload

theorem length_canonicalItems (items : List Payload) :
    (canonicalItems items).length = items.length := by
  induction items with
  | nil => rfl
  | cons item rest ih => simp only [canonicalItems, List.length_cons, ih]

theorem length_canonicalEntries (entries : List (String × Payload)) :
    (canonicalEntries entries).length = entries.length := by
  induction entries with
  | nil => rfl
  | cons entry rest ih => simp only [canonicalEntries, List.length_cons, ih]

mutual

theorem feed_canonical : ∀ (p : Payload) (rest : List UInt64), p.canonical.feed rest = p.feed rest
  | .number value, rest => by
      have keys : value.canonical.key = value.key := congrArg Number.bits value.canonical_canonical
      simp only [canonical, feed, keys]
  | .text value, rest => by simp only [canonical]
  | .logic value, rest => by simp only [canonical]
  | .void, rest => by simp only [canonical]
  | .list items, rest => by
      simp only [canonical, feed, length_canonicalItems, feedItems_canonical items]
  | .dictionary entries, rest => by
      simp only [canonical, feed, length_canonicalEntries, feedEntries_canonical entries]
  | .native name, rest => by simp only [canonical]

theorem feedItems_canonical : ∀ (items : List Payload) (rest : List UInt64),
    feedItems (canonicalItems items) rest = feedItems items rest
  | [], rest => by simp only [canonicalItems]
  | item :: items, rest => by
      simp only [canonicalItems, feedItems, feed_canonical item, feedItems_canonical items]

theorem feedEntries_canonical : ∀ (entries : List (String × Payload)) (rest : List UInt64),
    feedEntries (canonicalEntries entries) rest = feedEntries entries rest
  | [], rest => by simp only [canonicalEntries]
  | (_, value) :: entries, rest => by
      simp only [canonicalEntries, feedEntries, feed_canonical value, feedEntries_canonical entries]

end

end Payload

theorem Ty.length_canonicalAll (tys : List Ty) : (Ty.canonicalAll tys).length = tys.length := by
  induction tys with
  | nil => rfl
  | cons ty rest ih => simp only [Ty.canonicalAll, List.length_cons, ih]

theorem Parameter.length_canonicalAll (ps : List Parameter) :
    (Parameter.canonicalAll ps).length = ps.length := by
  induction ps with
  | nil => rfl
  | cons p rest ih => simp only [Parameter.canonicalAll, List.length_cons, ih]

theorem Ty.length_canonicalEntries (entries : List (String × Ty)) :
    (Ty.canonicalEntries entries).length = entries.length := by
  induction entries with
  | nil => rfl
  | cons entry rest ih => simp only [Ty.canonicalEntries, List.length_cons, ih]

mutual

theorem Ty.feed_canonical : ∀ (a : Ty) (rest : List UInt64), a.canonical.feed rest = a.feed rest
  | .literal value, rest => by simp only [Ty.canonical, Ty.feed, Value.feed_canonical value]
  | .union branches, rest => by
      simp only [Ty.canonical, Ty.feed, Ty.length_canonicalAll, Ty.feedAll_canonical branches]
  | .resolved shape, rest => by simp only [Ty.canonical, Ty.feed, Shape.feed_canonical shape]

theorem Shape.feed_canonical : ∀ (s : Shape) (rest : List UInt64),
    s.canonical.feed rest = s.feed rest
  | .number, rest | .text, rest | .logic, rest | .void, rest => by simp only [Shape.canonical]
  | .named _ ps, rest => by
      simp only [Shape.canonical, Shape.feed, Parameter.length_canonicalAll,
        Parameter.feedAll_canonical ps]
  | .function ps result, rest => by
      simp only [Shape.canonical, Shape.feed, Parameter.length_canonicalAll,
        Parameter.feedAll_canonical ps, Ty.feed_canonical result]
  | .list element, rest => by simp only [Shape.canonical, Shape.feed, Ty.feed_canonical element]
  | .tuple elements, rest => by
      simp only [Shape.canonical, Shape.feed, Ty.length_canonicalAll,
        Ty.feedAll_canonical elements]
  | .dictionary entries, rest => by
      simp only [Shape.canonical, Shape.feed, Ty.length_canonicalEntries,
        Ty.feedEntries_canonical entries]

theorem Value.feed_canonical : ∀ (u : Value) (rest : List UInt64),
    u.canonical.feed rest = u.feed rest
  | ⟨payload, shape⟩, rest => by
      simp only [Value.canonical, Value.feed, Payload.feed_canonical payload,
        Shape.feed_canonical shape]

theorem Parameter.feed_canonical : ∀ (p : Parameter) (rest : List UInt64),
    p.canonical.feed rest = p.feed rest
  | ⟨_, ty, default⟩, rest => by
      simp only [Parameter.canonical, Parameter.feed, Ty.feed_canonical ty,
        Value.feedOption_canonical default]

theorem Value.feedOption_canonical : ∀ (default : Option Value) (rest : List UInt64),
    Value.feedOption (Value.canonicalOption default) rest = Value.feedOption default rest
  | none, rest => by simp only [Value.canonicalOption]
  | some value, rest => by
      simp only [Value.canonicalOption, Value.feedOption, Value.feed_canonical value]

theorem Ty.feedAll_canonical : ∀ (tys : List Ty) (rest : List UInt64),
    Ty.feedAll (Ty.canonicalAll tys) rest = Ty.feedAll tys rest
  | [], rest => by simp only [Ty.canonicalAll]
  | ty :: tys, rest => by
      simp only [Ty.canonicalAll, Ty.feedAll, Ty.feed_canonical ty, Ty.feedAll_canonical tys]

theorem Parameter.feedAll_canonical : ∀ (ps : List Parameter) (rest : List UInt64),
    Parameter.feedAll (Parameter.canonicalAll ps) rest = Parameter.feedAll ps rest
  | [], rest => by simp only [Parameter.canonicalAll]
  | p :: ps, rest => by
      simp only [Parameter.canonicalAll, Parameter.feedAll, Parameter.feed_canonical p,
        Parameter.feedAll_canonical ps]

theorem Ty.feedEntries_canonical : ∀ (entries : List (String × Ty)) (rest : List UInt64),
    Ty.feedEntries (Ty.canonicalEntries entries) rest = Ty.feedEntries entries rest
  | [], rest => by simp only [Ty.canonicalEntries]
  | (_, ty) :: entries, rest => by
      simp only [Ty.canonicalEntries, Ty.feedEntries, Ty.feed_canonical ty,
        Ty.feedEntries_canonical entries]

end

/-- Equality that can take the place of identity in a hashed table: an equivalence, decided by
a canonical form and seen by the hash. -/
structure SoundKey {α : Type} [BEq α] (canonical : α → α)
    (feed : α → List UInt64 → List UInt64) : Prop where
  equivalence : Equivalence fun x y : α => (x == y) = true
  form : ∀ x y : α, (x == y) = true ↔ canonical x = canonical y
  words : ∀ x y : α, x == y → ∀ rest, feed x rest = feed y rest

theorem SoundKey.of_canonical {α : Type} [BEq α] {canonical : α → α}
    {feed : α → List UInt64 → List UInt64}
    (form : ∀ x y : α, (x == y) = true ↔ canonical x = canonical y)
    (fed : ∀ x rest, feed (canonical x) rest = feed x rest) : SoundKey canonical feed where
  equivalence :=
    { refl := fun x => (form x x).mpr rfl
      symm := fun same => (form _ _).mpr ((form _ _).mp same).symm
      trans := fun first second =>
        (form _ _).mpr (((form _ _).mp first).trans ((form _ _).mp second)) }
  form := form
  words x y same rest := by rw [← fed x, (form x y).mp same, fed]

theorem Payload.soundKey : SoundKey Payload.canonical Payload.feed :=
  .of_canonical Payload.beq_iff Payload.feed_canonical

theorem Value.soundKey : SoundKey Value.canonical Value.feed :=
  .of_canonical Value.beq_iff Value.feed_canonical

theorem Parameter.soundKey : SoundKey Parameter.canonical Parameter.feed :=
  .of_canonical Parameter.beq_iff Parameter.feed_canonical

theorem Ty.soundKey : SoundKey Ty.canonical Ty.feed :=
  .of_canonical Ty.beq_iff Ty.feed_canonical

theorem Ty.feed_pair {a b c d : Ty} (left : a == c) (right : b == d) (rest : List UInt64) :
    a.feed (b.feed rest) = c.feed (d.feed rest) := by
  rw [Ty.soundKey.words a c left, Ty.soundKey.words b d right]

/-- Equality of payloads, values, parameters and types is an equivalence decided by canonical
forms, in which only zeros and not-a-number patterns lose their bits, and equal data feed a hash
the same words, so that equal operand pairs share every key made of these. Equal operands get the
same plain answer to a subset question, and equal meets or none. -/
theorem equality_sound_as_key :
    SoundKey Payload.canonical Payload.feed ∧ SoundKey Value.canonical Value.feed ∧
    SoundKey Parameter.canonical Parameter.feed ∧ SoundKey Ty.canonical Ty.feed ∧
    (∀ m n : Number, (Payload.number m == Payload.number n) = true ↔
      m.bits = n.bits ∨ (m.isZero = true ∧ n.isZero = true) ∨
        (m.isNaN = true ∧ n.isNaN = true)) ∧
    ∀ a b c d : Ty, a == c → b == d →
      (∀ rest, a.feed (b.feed rest) = c.feed (d.feed rest)) ∧
      Reference.subset a b = Reference.subset c d ∧
      ((Reference.meet a b = none ∧ Reference.meet c d = none) ∨
        ∃ x y, Reference.meet a b = some x ∧ Reference.meet c d = some y ∧ (x == y) = true) := by
  refine ⟨Payload.soundKey, Value.soundKey, Parameter.soundKey, Ty.soundKey, fun m n => ?_, ?_⟩
  · have numbers : (Payload.number m == Payload.number n) = m.same n := by
      change Payload.beq _ _ = _
      rw [Payload.beq]
    rw [numbers, Number.same_iff_bits]
  · intro a b c d left right
    refine ⟨Ty.feed_pair left right, Reference.subset_congr left right, ?_⟩
    exact @Precision.option_cases .equality _ _ _ _ (Reference.meet_congr left right)

def Value.reading (zero nan : Number) : Value where
  payload := .list [.number zero, .dictionary [("last", .number nan)]]
  shape := .tuple [.number, .resolved (.dictionary [("last", .number)])]

def Ty.resumes (reading : Value) : Ty :=
  .function [⟨"from", .literal reading, some reading⟩] .text

def Ty.resumesAtZero : Ty := .resumes (.reading ⟨0⟩ ⟨0x7ff8000000000000⟩)

def Ty.resumesAtNegative : Ty := .resumes (.reading ⟨0x8000000000000000⟩ ⟨0xfff0000000000001⟩)

theorem equality_sound_as_key_readings :
    Ty.resumesAtZero == Ty.resumesAtNegative ∧
    Ty.resumesAtZero.feed [] = Ty.resumesAtNegative.feed [] ∧
    Ty.resumesAtZero.feed (Ty.resumesAtZero.feed []) =
      Ty.resumesAtNegative.feed (Ty.resumesAtZero.feed []) ∧
    Reference.subset .resumesAtZero .resumesAtZero =
      Reference.subset .resumesAtNegative .resumesAtZero ∧
    ∃ x y, Reference.meet .resumesAtZero .resumesAtZero = some x ∧
      Reference.meet .resumesAtNegative .resumesAtZero = some y ∧ (x == y) = true := by
  obtain ⟨-, -, -, types, -, operands⟩ := equality_sound_as_key
  have same : (Ty.resumesAtZero == Ty.resumesAtNegative) = true := by cbv
  obtain ⟨words, subsets, meets⟩ := operands .resumesAtZero .resumesAtZero .resumesAtNegative
    .resumesAtZero same (types.equivalence.refl _)
  have meeting : (Reference.meet .resumesAtZero .resumesAtZero).isSome = true := by cbv
  refine ⟨same, types.words _ _ same [], words [], subsets, ?_⟩
  rcases meets with ⟨none, -⟩ | found
  · rw [none] at meeting
    cases meeting
  · exact found

end StructuralTypes
