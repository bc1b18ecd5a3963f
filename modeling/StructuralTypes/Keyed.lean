/-!
Association lists in increasing key order, each key once. `insert` replaces the
entry of a key that is already there, so building from a list keeps the last
entry of a repeated key.
-/

namespace StructuralTypes.Keyed

variable {α : Type}

def get? (key : String) : List (String × α) → Option α
  | [] => none
  | (found, value) :: rest => if found = key then some value else get? key rest

def insert (key : String) (value : α) : List (String × α) → List (String × α)
  | [] => [(key, value)]
  | (found, other) :: rest =>
      if key < found then (key, value) :: (found, other) :: rest
      else if key = found then (key, value) :: rest
      else (found, other) :: insert key value rest

def ofList (entries : List (String × α)) : List (String × α) :=
  entries.foldl (fun known entry => insert entry.1 entry.2 known) []

def keys (entries : List (String × α)) : List String :=
  entries.map Prod.fst

/-- The order that `insert` keeps: keys increase strictly, so none repeats. -/
def Sorted (entries : List (String × α)) : Prop :=
  (keys entries).Pairwise (· < ·)

instance (entries : List (String × α)) : Decidable (Sorted entries) :=
  inferInstanceAs (Decidable ((keys entries).Pairwise (· < ·)))

theorem get?_insert (key other : String) (value : α) (entries : List (String × α)) :
    get? other (insert key value entries) =
      if key = other then some value else get? other entries := by
  induction entries with
  | nil => simp [insert, get?]
  | cons entry rest ih =>
      obtain ⟨found, previous⟩ := entry
      by_cases before : key < found
      · simp [insert, get?, before]
      · by_cases same : key = found
        · subst same
          by_cases equal : key = other <;> simp [insert, get?, equal]
        · by_cases equal : found = other
          · subst equal
            simp [insert, get?, before, same]
          · simp [insert, get?, before, same, equal, ih]

theorem mem_of_get? {key : String} {value : α} {entries : List (String × α)}
    (found : get? key entries = some value) : (key, value) ∈ entries := by
  induction entries with
  | nil => simp [get?] at found
  | cons entry rest ih =>
      obtain ⟨other, first⟩ := entry
      simp only [get?] at found
      split at found
      · next same =>
          cases same
          cases found
          exact List.mem_cons_self
      · exact List.mem_cons_of_mem _ (ih found)

theorem get?_of_mem {key : String} {value : α} {entries : List (String × α)}
    (sorted : Sorted entries) (member : (key, value) ∈ entries) :
    get? key entries = some value := by
  induction entries with
  | nil => cases member
  | cons entry rest ih =>
      obtain ⟨first, other⟩ := entry
      obtain ⟨above, order⟩ := List.pairwise_cons.mp sorted
      simp only [get?]
      rcases List.mem_cons.mp member with same | later
      · cases same
        rw [if_pos rfl]
      · have greater : first < key := above key (List.mem_map_of_mem later)
        have different : first ≠ key := by
          rintro rfl
          exact String.lt_irrefl first greater
        rw [if_neg different]
        exact ih order later

theorem mem_keys_insert (key other : String) (value : α) (entries : List (String × α)) :
    other ∈ keys (insert key value entries) ↔ other = key ∨ other ∈ keys entries := by
  induction entries with
  | nil => simp [insert, keys]
  | cons entry rest ih =>
      obtain ⟨found, previous⟩ := entry
      simp only [keys, insert] at ih ⊢
      split
      · simp
      · split
        · next same => simp [same]
        · simp only [List.map_cons, List.mem_cons, ih]
          grind

theorem sorted_insert (key : String) (value : α) {entries : List (String × α)}
    (sorted : Sorted entries) : Sorted (insert key value entries) := by
  induction entries with
  | nil => simp [insert, Sorted, keys]
  | cons entry rest ih =>
      obtain ⟨found, previous⟩ := entry
      have parts : (∀ k ∈ keys rest, found < k) ∧ Sorted rest := by
        simpa [Sorted, keys] using sorted
      simp only [insert]
      split
      · next before =>
          have above : ∀ k ∈ keys rest, key < k :=
            fun k member => String.lt_trans before (parts.1 k member)
          have tail : (keys rest).Pairwise (· < ·) := parts.2
          simp only [Sorted, keys, List.map_cons, List.pairwise_cons, List.mem_cons]
          exact ⟨fun k member => member.elim (fun same => same ▸ before) (above k),
            parts.1, tail⟩
      · split
        · next same => subst same; exact sorted
        · next notBefore different =>
            have after : found < key := by
              by_cases less : found < key
              · exact less
              · exact absurd (String.le_antisymm (String.not_lt.mp less)
                  (String.not_lt.mp notBefore)) different
            refine List.pairwise_cons.mpr ⟨fun k member => ?_, ih parts.2⟩
            rcases (mem_keys_insert key k value rest).mp member with same | old
            · exact same ▸ after
            · exact parts.1 k old

/-- Building from a list gives key order whatever the order of the list. -/
theorem sorted_ofList (entries : List (String × α)) : Sorted (ofList entries) := by
  have grows : ∀ known : List (String × α), Sorted known →
      Sorted (entries.foldl (fun known entry => insert entry.1 entry.2 known) known) := by
    induction entries with
    | nil => exact fun known sorted => sorted
    | cons entry rest ih =>
        exact fun known sorted => ih _ (sorted_insert entry.1 entry.2 sorted)
  exact grows [] (by simp [Sorted, keys])

theorem mem_of_mem_insert {key : String} {value : α} {entry : String × α}
    {entries : List (String × α)} (member : entry ∈ insert key value entries) :
    entry = (key, value) ∨ entry ∈ entries := by
  induction entries with
  | nil => simpa [insert] using member
  | cons head rest ih =>
      obtain ⟨found, other⟩ := head
      simp only [insert] at member
      split at member
      · exact List.mem_cons.mp member
      · split at member
        · exact (List.mem_cons.mp member).imp_right (List.mem_cons_of_mem _)
        · rcases List.mem_cons.mp member with first | later
          · exact .inr (first ▸ List.mem_cons_self)
          · exact (ih later).imp_right (List.mem_cons_of_mem _)

theorem mem_of_mem_ofList {entry : String × α} {entries : List (String × α)}
    (member : entry ∈ ofList entries) : entry ∈ entries := by
  have grows : ∀ known : List (String × α),
      entry ∈ entries.foldl (fun known entry => insert entry.1 entry.2 known) known →
        entry ∈ known ∨ entry ∈ entries := by
    clear member
    induction entries with
    | nil => exact fun known member => .inl member
    | cons head rest ih =>
        intro known member
        rcases ih _ member with before | later
        · rcases mem_of_mem_insert before with new | old
          · exact .inr (new ▸ List.mem_cons_self)
          · exact .inl old
        · exact .inr (List.mem_cons_of_mem _ later)
  exact (grows [] member).resolve_left List.not_mem_nil

theorem insert_of_above {key : String} (value : α) {entries : List (String × α)}
    (above : ∀ k ∈ keys entries, k < key) :
    insert key value entries = entries ++ [(key, value)] := by
  induction entries with
  | nil => rfl
  | cons head rest ih =>
      obtain ⟨found, other⟩ := head
      have first : found < key := above found List.mem_cons_self
      have notBefore : ¬ key < found := String.lt_asymm first
      have different : ¬ key = found := fun same => String.lt_irrefl key (same ▸ first)
      simp only [insert, if_neg notBefore, if_neg different, List.cons_append]
      rw [ih fun k member => above k (List.mem_cons_of_mem _ member)]

theorem ofList_of_sorted {entries : List (String × α)} (sorted : Sorted entries) :
    ofList entries = entries := by
  have grows : ∀ known : List (String × α), Sorted (known ++ entries) →
      entries.foldl (fun known entry => insert entry.1 entry.2 known) known = known ++ entries := by
    clear sorted
    induction entries with
    | nil => exact fun known _ => (List.append_nil known).symm
    | cons head rest ih =>
        intro known sorted
        have above : ∀ k ∈ keys known, k < head.1 := by
          intro k member
          rw [Sorted, keys, List.map_append, List.pairwise_append] at sorted
          exact sorted.2.2 k member head.1 List.mem_cons_self
        rw [List.foldl_cons, insert_of_above _ above]
        have whole : known ++ head :: rest = (known ++ [head]) ++ rest := by simp
        rw [whole] at sorted ⊢
        exact ih _ sorted
  exact grows [] sorted

end StructuralTypes.Keyed
