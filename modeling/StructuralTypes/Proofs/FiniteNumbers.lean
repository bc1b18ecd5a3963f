import StructuralTypes.Json.Reader
import StructuralTypes.Proofs.Documents

/-!
No infinite number comes from outside. The number nearest to a decimal is finite or there is
none, so every number in a document that was read from a text is finite.
-/

namespace StructuralTypes

theorem Number.exponent_neg (n : Number) : n.neg.exponent = n.exponent := by
  have sign : (0x8000000000000000 : UInt64).toNat = 2 ^ 63 := rfl
  have fractions : (0x10000000000000 : Nat) = 2 ^ 52 := rfl
  have exponents : (2048 : Nat) = 2 ^ 11 := rfl
  simp only [Number.exponent, Number.neg, UInt64.toNat_xor, sign, fractions, exponents]
  rw [← Nat.shiftRight_eq_div_pow, Nat.shiftRight_xor_distrib, Nat.xor_mod_two_pow,
    ← Nat.shiftRight_eq_div_pow]
  simp

theorem Number.isFinite_neg (n : Number) : n.neg.isFinite = n.isFinite := by
  rw [Number.isFinite, Number.isFinite, Number.exponent_neg]

namespace Decimal

theorem nearestQuotient?_finite {top bottom : Nat} {n : Number}
    (nearest : nearestQuotient? top bottom = some n) : n.isFinite = true := by
  simp only [nearestQuotient?, Option.ite_none_right_eq_some, Option.some.injEq] at nearest
  obtain ⟨low, rfl⟩ := nearest
  generalize packed _ _ = bits at low
  have same : bits.toUInt64.toNat = bits :=
    UInt64.toNat_ofNat_of_lt' (Nat.lt_trans low (by decide))
  rw [Number.isFinite, Number.exponent, same, decide_eq_true_eq]
  omega

theorem Scientific.nearest?_finite {decimal : Scientific} {n : Number}
    (nearest : decimal.nearest? = some n) : n.isFinite = true := by
  simp only [Scientific.nearest?] at nearest
  split at nearest
  · cases nearest
    rfl
  · split at nearest
    · cases nearest
    · exact nearestQuotient?_finite nearest

end Decimal

namespace Json

/-- Every number written out in the document is finite. -/
def Finite (json : Json) : Prop := ∀ n : Number, (Json.float n).Inside json → n.isFinite = true

theorem Finite.inside {inner outer : Json} (finite : outer.Finite) (inside : inner.Inside outer) :
    inner.Finite :=
  fun n within => finite n (within.trans inside)

theorem finite_of_children {json : Json} (here : ∀ n, json = .float n → n.isFinite = true)
    (there : ∀ child ∈ json.children, child.Finite) : json.Finite := by
  intro n inside
  rcases Relation.ReflTransGen.cases_tail inside with same | ⟨child, within, member⟩
  · exact here n same
  · exact there child member n within

theorem finite_leaf {json : Json} (leaf : json.children = []) (other : ∀ n, json ≠ .float n) :
    json.Finite :=
  finite_of_children (fun n same => absurd same (other n)) (by simp [leaf])

theorem toNumber?_finite {json : Json} {n : Number} (finite : json.Finite)
    (read : json.toNumber? = some n) : n.isFinite = true := by
  cases json with
  | integer value =>
      obtain ⟨size, nearest, rfl⟩ := Option.map_eq_some_iff.mp read
      split
      · rw [Number.isFinite_neg]
        exact Decimal.Scientific.nearest?_finite nearest
      · exact Decimal.Scientific.nearest?_finite nearest
  | float value =>
      cases read
      exact finite _ (.refl _)
  | _ => cases read

theorem Numeral.rounded_finite (numeral : Numeral) : numeral.rounded.Finite := by
  rw [Numeral.rounded]
  split
  · next value nearest =>
      have finite : (numeral.signed value).isFinite = true := by
        rw [Numeral.signed]
        split
        · rw [Number.isFinite_neg]
          exact Decimal.Scientific.nearest?_finite nearest
        · exact Decimal.Scientific.nearest?_finite nearest
      exact finite_of_children (by rintro n ⟨⟩; exact finite) (by simp [children])
  · exact finite_leaf rfl (by simp)

theorem Numeral.toJson_finite (numeral : Numeral) : numeral.toJson.Finite := by
  have whole (value : Int) : (Json.integer value).Finite :=
    finite_leaf rfl (by simp)
  rw [Numeral.toJson]
  split
  · dsimp only
    split
    · split
      · exact numeral.rounded_finite
      · exact whole _
    · split
      · exact whole _
      · exact numeral.rounded_finite
  · exact numeral.rounded_finite

theorem ofMembers_finite {members : List (Option String × Json)}
    (finite : ∀ member ∈ members, member.2.Finite) : (ofMembers members).Finite := by
  rw [ofMembers]
  split
  · next named found =>
      have each := mapM_eq_some_iff.mp found
      apply finite_of_children (by simp)
      intro child member
      obtain ⟨entry, inside, rfl⟩ := List.mem_map.mp member
      obtain ⟨source, within, same⟩ := exists_of_mem_right each inside
      obtain ⟨key, -, rfl⟩ := Option.map_eq_some_iff.mp same
      exact finite source within
  · exact finite_leaf rfl (by simp)

/-- What the readers find at the front of a text has finite numbers only. -/
structure ReadsFinite (fuel : Nat) : Prop where
  value : ∀ {cs json rest}, readValue fuel cs = some (json, rest) → json.Finite
  items : ∀ {cs found rest}, readItems fuel cs = some (found, rest) → ∀ item ∈ found, item.Finite
  members : ∀ {cs found rest}, readMembers fuel cs = some (found, rest) →
    ∀ member ∈ found, member.2.Finite

theorem readWord_finite {word : String} {value json : Json} {cs rest : List Char}
    (finite : value.Finite) (read : readWord word value cs = some (json, rest)) : json.Finite := by
  simp only [readWord, Option.ite_none_right_eq_some, Option.some.injEq, Prod.mk.injEq] at read
  exact read.2.1 ▸ finite

section Step

variable {fuel : Nat} {cs rest : List Char}

theorem readValue_finite (ih : ReadsFinite fuel) {json : Json}
    (read : readValue (fuel + 1) cs = some (json, rest)) : json.Finite := by
  simp only [readValue] at read
  split at read
  · cases read
  · split at read
    · obtain ⟨⟨text, left⟩, -, found⟩ := Option.bind_eq_some_iff.mp read
      dsimp only at found
      split at found <;> cases found <;> exact finite_leaf rfl (by simp)
    split at read
    · split at read
      · cases read
        exact finite_leaf rfl (by simp)
      · obtain ⟨⟨items, left⟩, inner, found⟩ := Option.bind_eq_some_iff.mp read
        cases found
        exact finite_of_children (by simp) (ih.items inner)
    split at read
    · split at read
      · cases read
        exact finite_leaf rfl (by simp)
      · obtain ⟨⟨members, left⟩, inner, found⟩ := Option.bind_eq_some_iff.mp read
        cases found
        exact ofMembers_finite (ih.members inner)
    split at read
    · exact readWord_finite (finite_leaf rfl (by simp)) read
    split at read
    · exact readWord_finite (finite_leaf rfl (by simp)) read
    split at read
    · exact readWord_finite (finite_leaf rfl (by simp)) read
    · obtain ⟨⟨numeral, left⟩, -, found⟩ := Option.bind_eq_some_iff.mp read
      cases found
      exact numeral.toJson_finite

theorem readItems_finite (ih : ReadsFinite fuel) {found : List Json}
    (read : readItems (fuel + 1) cs = some (found, rest)) : ∀ item ∈ found, item.Finite := by
  simp only [readItems] at read
  obtain ⟨⟨item, left⟩, inner, more⟩ := Option.bind_eq_some_iff.mp read
  dsimp only at more
  split at more
  · obtain ⟨⟨items, left⟩, later, same⟩ := Option.bind_eq_some_iff.mp more
    cases same
    exact List.forall_mem_cons.mpr ⟨ih.value inner, ih.items later⟩
  · cases more
    exact List.forall_mem_singleton.mpr (ih.value inner)
  · cases more

theorem readMembers_finite (ih : ReadsFinite fuel) {found : List (Option String × Json)}
    (read : readMembers (fuel + 1) cs = some (found, rest)) :
    ∀ member ∈ found, member.2.Finite := by
  simp only [readMembers] at read
  split at read
  · obtain ⟨⟨key, left⟩, -, more⟩ := Option.bind_eq_some_iff.mp read
    dsimp only at more
    split at more
    · obtain ⟨⟨value, left⟩, inner, last⟩ := Option.bind_eq_some_iff.mp more
      dsimp only at last
      split at last
      · obtain ⟨⟨members, left⟩, later, same⟩ := Option.bind_eq_some_iff.mp last
        cases same
        exact List.forall_mem_cons.mpr ⟨ih.value inner, ih.members later⟩
      · cases last
        exact List.forall_mem_singleton.mpr (ih.value inner)
      · cases last
    · cases more
  · cases read

end Step

theorem readsFinite (fuel : Nat) : ReadsFinite fuel := by
  induction fuel with
  | zero => constructor <;> (intro cs found rest read; cases read)
  | succ fuel ih => exact ⟨readValue_finite ih, readItems_finite ih, readMembers_finite ih⟩

theorem read_finite {text : String} {json : Json} (found : read text = some json) :
    json.Finite := by
  simp only [read] at found
  obtain ⟨⟨value, rest⟩, inner, last⟩ := Option.bind_eq_some_iff.mp found
  dsimp only at last
  split at last
  · cases last
    exact (readsFinite _).value inner
  · cases last

end Json

end StructuralTypes
