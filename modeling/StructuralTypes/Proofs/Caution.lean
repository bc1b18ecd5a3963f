import StructuralTypes.Proofs.Context
import StructuralTypes.Proofs.PartialMeet

/-!
A context never answers more than the plain rules do. Every rule is monotone in the answers
to its parts: a truth that was missed or a meet that was not found can only make the answer
to the whole miss more. `Below` carries this through the rules. It needs no count of
cutoffs, and neither the depth nor the steps have to reach far enough; entries of the tables
need only be `Policy.cautious`.

A meet of unions or of structures may lose branches or keys under a cutoff, so it is compared
with the plain one for being there, and is a partial meet otherwise. A meet of two types without
branches that comes out as a primitive is the plain one, and this is what the checks of operands
rest on.
-/

namespace StructuralTypes

/-- A meet found by a context, beside the plain one. -/
structure MeetBelow (a b : Ty) (x y : Option Ty) : Prop where
  found : x.isSome ≤ y.isSome
  single : a.isUnion = false → b.isUnion = false → ∀ ty, x = some ty →
    ty.isUnion = false ∧ (ty.carrier.isPrimitive = true →
      a.carrier = ty.carrier ∧ b.carrier = ty.carrier ∧ (y == some ty) = true)
  met : b.Ordered → ∀ ty, x = some ty → a.PartialMeet b ty

namespace MeetBelow

theorem none (a b : Ty) (y : Option Ty) : MeetBelow a b none y := by
  constructor
  · intro found
    cases found
  · intro _ _ ty same
    cases same
  · intro _ ty same
    cases same

theorem literal {a b : Ty} {value : Value} (left : a.isUnion = false) (right : b.isUnion = false)
    (carriers : (Ty.literal value).carrier.isPrimitive = true →
      a.carrier = (Ty.literal value).carrier ∧ b.carrier = (Ty.literal value).carrier)
    (plain : Reference.meet a b = some (.literal value)) :
    MeetBelow a b (some (.literal value)) (some (.literal value)) := by
  constructor
  · exact Bool.le_refl _
  · intro _ _ other same
    cases same
    refine ⟨rfl, fun primitive => ?_⟩
    obtain ⟨first, second⟩ := carriers primitive
    exact ⟨first, second, BEq.refl _⟩
  · intro _ other same
    cases same
    exact .atom left right plain rfl

theorem union {a b : Ty} {x y : Option Ty} (union : a.isUnion = true ∨ b.isUnion = true)
    (found : x.isSome ≤ y.isSome) (met : b.Ordered → ∀ ty, x = some ty → a.PartialMeet b ty) :
    MeetBelow a b x y := by
  refine ⟨found, ?_, met⟩
  intro left right
  rcases union with union | union
  · rw [left] at union
    cases union
  · rw [right] at union
    cases union

theorem of_unions {a b : Ty} {x y : Option Ty} (union : a.isUnion = true ∨ b.isUnion = true)
    (below : MeetBelow (.union [a]) (.union [b]) x y) : MeetBelow a b x y := by
  have one : ∀ c : Ty, (Ty.union [c]).branches = c.branches := fun c => by
    simp only [Ty.branches, Ty.branchesOf, List.append_nil]
  refine .union union below.found fun ordered ty found => ?_
  have whole : (Ty.union [b]).Ordered := ordered.of_branches fun branch inside => one b ▸ inside
  exact (below.met whole ty found).of_branches (one a) (one b)

theorem congr {a b c d : Ty} {x y z : Option Ty} (left : a == c) (right : b == d)
    (plain : (y == z) = true) (below : MeetBelow a b x y) : MeetBelow c d x z := by
  constructor
  · intro found
    rw [← isSome_equal plain]
    exact below.found found
  · intro single singleOther ty found
    rw [← Ty.isUnion_equal left] at single
    rw [← Ty.isUnion_equal right] at singleOther
    obtain ⟨one, primitives⟩ := below.single single singleOther ty found
    refine ⟨one, fun primitive => ?_⟩
    obtain ⟨first, second, same⟩ := primitives primitive
    -- operands that are equal to ones with a primitive carrier have that carrier
    have carrier : a.carrier = c.carrier :=
      Ty.eq_of_equal_primitive (Ty.carrier_equal left) (first ▸ primitive)
    have otherCarrier : b.carrier = d.carrier :=
      Ty.eq_of_equal_primitive (Ty.carrier_equal right) (second ▸ primitive)
    exact ⟨carrier ▸ first, otherCarrier ▸ second, PartialEquivBEq.trans (BEq.symm plain) same⟩
  · intro ordered ty found
    exact (below.met (ordered.congr (BEq.symm right)) ty found).congr left right

end MeetBelow

def MayMeet (a b ty : Ty) : Prop := ∃ plain, MeetBelow a b (some ty) plain

theorem MayMeet.partly {a b ty : Ty} (found : MayMeet a b ty) (ordered : b.Ordered) :
    a.PartialMeet b ty := by
  obtain ⟨plain, below⟩ := found
  exact below.met ordered ty rfl

theorem MayMeet.partly_each {pairs : List (Ty × Ty)} {tys : List Ty}
    (each : List.Forall₂ (fun pair ty => MayMeet pair.1 pair.2 ty) pairs tys)
    (ordered : ∀ pair ∈ pairs, pair.2.Ordered) :
    List.Forall₂ (fun pair ty => pair.1.PartialMeet pair.2 ty) pairs tys := by
  have both := (List.forall₂_and_left _ _).mpr ⟨ordered, each⟩
  exact both.imp fun _ _ pair => pair.2.partly pair.1

structure MeetsBelow (pairs : List (Ty × Ty)) (xs ys : List Ty) : Prop where
  found : xs ≠ [] → ys ≠ []
  few : xs.length ≤ pairs.length
  each : ∀ ty ∈ xs, ∃ pair ∈ pairs, MayMeet pair.1 pair.2 ty

theorem MeetsBelow.missed {pairs : List (Ty × Ty)} {xs ys zs : List Ty} (pair : Ty × Ty)
    (below : MeetsBelow pairs xs ys) (plain : ys ≠ [] → zs ≠ []) :
    MeetsBelow (pair :: pairs) xs zs where
  found nonempty := plain (below.found nonempty)
  few := Nat.le_succ_of_le below.few
  each ty member := by
    obtain ⟨other, inside, found⟩ := below.each ty member
    exact ⟨other, List.mem_cons_of_mem pair inside, found⟩

theorem MeetsBelow.cons {pairs : List (Ty × Ty)} {pair : Ty × Ty} {xs ys : List Ty} {ty : Ty}
    (first : MayMeet pair.1 pair.2 ty) (plain : Ty) (below : MeetsBelow pairs xs ys) :
    MeetsBelow (pair :: pairs) (ty :: xs) (plain :: ys) where
  found _ := List.cons_ne_nil plain ys
  few := Nat.succ_le_succ below.few
  each other member := by
    rcases List.mem_cons.mp member with rfl | later
    · exact ⟨pair, List.mem_cons_self, first⟩
    · obtain ⟨source, inside, found⟩ := below.each other later
      exact ⟨source, List.mem_cons_of_mem pair inside, found⟩

structure AllMeetBelow (pairs : List (Ty × Ty)) (x y : Option (List Ty)) : Prop where
  found : x.isSome ≤ y.isSome
  each : ∀ tys, x = some tys → List.Forall₂ (fun pair ty => MayMeet pair.1 pair.2 ty) pairs tys

theorem AllMeetBelow.none (pairs : List (Ty × Ty)) (y : Option (List Ty)) :
    AllMeetBelow pairs none y := by
  constructor
  · exact Bool.false_le _
  · intro tys same
    cases same

theorem AllMeetBelow.some {pairs : List (Ty × Ty)} {tys : List Ty} (plain : List Ty)
    (each : List.Forall₂ (fun pair ty => MayMeet pair.1 pair.2 ty) pairs tys) :
    AllMeetBelow pairs (some tys) (some plain) := by
  constructor
  · exact Bool.le_refl _
  · intro others same
    cases same
    exact each

structure FieldsBelow (entries others xs ys : List (String × Ty)) : Prop where
  found : xs ≠ [] → ys ≠ []
  keys : (Keyed.keys xs).Sublist (Keyed.keys others)
  each : ∀ key ty, (key, ty) ∈ xs → ∃ field other, Keyed.get? key entries = some field ∧
    (key, other) ∈ others ∧ MayMeet field other ty

theorem FieldsBelow.missed {entries others xs ys zs : List (String × Ty)} (entry : String × Ty)
    (below : FieldsBelow entries others xs ys) (plain : ys ≠ [] → zs ≠ []) :
    FieldsBelow entries (entry :: others) xs zs where
  found nonempty := plain (below.found nonempty)
  keys := below.keys.cons entry.1
  each key ty member := by
    obtain ⟨field, other, standing, inside, found⟩ := below.each key ty member
    exact ⟨field, other, standing, List.mem_cons_of_mem entry inside, found⟩

theorem FieldsBelow.cons {entries others xs ys : List (String × Ty)} {key : String}
    {field other ty : Ty} (standing : Keyed.get? key entries = some field)
    (first : MayMeet field other ty) (plain : Ty) (below : FieldsBelow entries others xs ys) :
    FieldsBelow entries ((key, other) :: others) ((key, ty) :: xs) ((key, plain) :: ys) where
  found _ := List.cons_ne_nil (key, plain) ys
  keys := below.keys.cons_cons key
  each name found member := by
    rcases List.mem_cons.mp member with same | later
    · cases same
      exact ⟨field, other, standing, List.mem_cons_self, first⟩
    · obtain ⟨source, target, there, inside, met⟩ := below.each name found later
      exact ⟨source, target, there, List.mem_cons_of_mem _ inside, met⟩

structure ShapeMeetBelow (s t : Shape) (x y : Option Shape) : Prop where
  found : x.isSome ≤ y.isSome
  primitive : ∀ shape, x = some shape → shape.isPrimitive = true →
    s = shape ∧ t = shape ∧ y = some shape
  met : (Ty.resolved t).Ordered → ∀ shape, x = some shape →
    (Ty.resolved s).PartialMeet (.resolved t) (.resolved shape)

namespace ShapeMeetBelow

theorem none (s t : Shape) (y : Option Shape) : ShapeMeetBelow s t none y := by
  constructor
  · intro found
    cases found
  · intro shape same
    cases same
  · intro _ shape same
    cases same

theorem same {s : Shape} (atomic : (Ty.resolved s).atomic = true)
    (plain : Reference.ShapeMeet s s s) : ShapeMeetBelow s s (some s) (some s) := by
  constructor
  · exact Bool.le_refl _
  · intro shape same _
    cases same
    exact ⟨rfl, rfl, rfl⟩
  · intro _ shape same
    cases same
    exact .atom rfl rfl ((Reference.meet_resolved_iff s s _).mpr ⟨s, rfl, plain⟩) atomic

theorem other {s t shape : Shape} (other : Shape) (composite : shape.isPrimitive = false)
    (met : (Ty.resolved t).Ordered → (Ty.resolved s).PartialMeet (.resolved t) (.resolved shape)) :
    ShapeMeetBelow s t (some shape) (some other) := by
  constructor
  · exact Bool.le_refl _
  · intro found same primitive
    cases same
    rw [composite] at primitive
    cases primitive
  · intro ordered found same
    cases same
    exact met ordered

end ShapeMeetBelow

def ReduceBelow (branches : List Ty) (x y : Option Ty) : Prop :=
  ∀ common, x = some common → common.carrier.isPrimitive = true →
    (y == some common) = true ∧ ∀ branch ∈ branches, branch.carrier = common.carrier

theorem ReduceBelow.none (branches : List Ty) (y : Option Ty) : ReduceBelow branches none y := by
  intro common same
  cases same

/-- An entry holds no more than the plain answer. -/
def Policy.cautious : Policy where
  subset a b x := x ≤ Reference.subset a b
  meet a b x := MeetBelow a b x (Reference.meet a b)
  subset_congr {a b c d _} left right below := by
    have equal : Reference.subset a b = Reference.subset c d := Reference.subset_congr left right
    rwa [← equal]
  meet_congr left right below := below.congr left right (Reference.meet_congr left right)

theorem Ty.collapse_isSome (parts : List Ty) : (Ty.collapse parts).isSome = true ↔ parts ≠ [] := by
  rw [Option.isSome_iff_ne_none, ne_eq, ne_eq, Ty.collapse_eq_none_iff]

namespace Query

variable [PairKey]

/-- Whatever the context, the results of a computation and of a plain one are related, and
the entries stay cautious. -/
def Below {α β : Type} (rel : α → β → Prop) (work : Query α) (plain : Id β) : Prop :=
  ∀ context : Context, context.cache.Obeys .cautious →
    (work.run context).2.cache.Obeys .cautious ∧ rel (work.run context).1 plain.run

namespace Below

variable {α β γ δ : Type} {rel : α → β → Prop} {next : γ → δ → Prop}

theorem pure {x : α} {y : Id β} (related : rel x y.run) : Below rel (pure x) y := by
  intro context obeys
  exact ⟨obeys, related⟩

theorem step {x : Query α} {y : Id β} {f : α → Query γ} {z : Id δ} (first : Below rel x y)
    (rest : ∀ u, rel u y.run → Below next (f u) z) : Below next (x >>= f) z := by
  intro context obeys
  have done := first context obeys
  exact rest _ done.2 _ done.1

theorem bind {x : Query α} {y : Id β} {f : α → Query γ} {g : β → Id δ} (first : Below rel x y)
    (rest : ∀ u, rel u y.run → Below next (f u) (g y.run)) : Below next (x >>= f) (y >>= g) :=
  first.step rest

theorem mono {other : α → γ → Prop} {x : Query α} {y : Id β} {z : Id γ} (below : Below rel x y)
    (weaker : ∀ u, rel u y.run → other u z.run) : Below other x z := by
  intro context obeys
  have done := below context obeys
  exact ⟨done.1, weaker _ done.2⟩

theorem also {x : Query α} {y : Id β} {good : α → Prop} (below : Below rel x y)
    (always : ∀ context, good (x.run context).1) : Below (fun u v => rel u v ∧ good u) x y := by
  intro context obeys
  have done := below context obeys
  exact ⟨done.1, done.2, always context⟩

theorem missed (y : Id Bool) : Below (· ≤ ·) (Pure.pure false) y :=
  pure (Bool.false_le _)

theorem same (x : Bool) : Below (· ≤ ·) (Pure.pure x) (Pure.pure x : Id Bool) :=
  pure (Bool.le_refl x)

theorem test {x w : Query Bool} {y z : Id Bool} (first : Below (· ≤ ·) x y)
    (second : Below (· ≤ ·) w z) :
    Below (· ≤ ·) (do if ← x then w else Pure.pure false)
      (do if ← y then z else Pure.pure false) := by
  apply first.bind
  intro holds below
  cases holds with
  | false => exact missed _
  | true =>
      have passed : y.run = true := below rfl
      simp only [passed, if_true]
      exact second

theorem keepIf {x : Query Bool} {y : Id Bool} {kept : α} {meets : Option α → Option α → Prop}
    (first : Below (· ≤ ·) x y) (missed : ∀ z, meets none z)
    (both : y.run = true → meets (some kept) (some kept)) :
    Below meets (do if ← x then Pure.pure (some kept) else Pure.pure none)
      (do if ← y then Pure.pure (some kept) else Pure.pure none : Id (Option α)) := by
  apply first.bind
  intro holds below
  cases holds with
  | false => exact pure (missed _)
  | true =>
      have passed : y.run = true := below rfl
      simp only [passed, if_true]
      exact pure (both passed)

theorem allM {xs : List α} {f : α → Query Bool} {g : α → Id Bool}
    (each : ∀ x ∈ xs, Below (· ≤ ·) (f x) (g x)) : Below (· ≤ ·) (xs.allM f) (xs.allM g) := by
  induction xs with
  | nil => exact same true
  | cons x rest ih =>
      rw [List.allM_cons, List.allM_cons]
      apply (each x List.mem_cons_self).bind
      intro holds below
      cases holds with
      | false => exact missed _
      | true =>
          have passed : (g x).run = true := below rfl
          simp only [passed]
          exact ih fun other member => each other (List.mem_cons_of_mem x member)

theorem anyM {xs : List α} {f : α → Query Bool} {g : α → Id Bool}
    (each : ∀ x ∈ xs, Below (· ≤ ·) (f x) (g x)) : Below (· ≤ ·) (xs.anyM f) (xs.anyM g) := by
  induction xs with
  | nil => exact same false
  | cons x rest ih =>
      have others := ih fun other member => each other (List.mem_cons_of_mem x member)
      rw [List.anyM_cons, List.anyM_cons]
      apply (each x List.mem_cons_self).bind
      intro holds below
      cases holds with
      | true =>
          have passed : (g x).run = true := below rfl
          simp only [passed]
          exact same true
      | false =>
          -- a hit that was missed here may still be made up for later
          cases (g x).run with
          | true => exact others.mono fun _ _ => Bool.le_true _
          | false => exact others

theorem bindSome {x : Query (Option α)} {y : Id (Option β)} {f : Option α → Query γ}
    {g : Option β → Id δ} {meets : Option α → Option β → Prop} (first : Below meets x y)
    (found : ∀ {u v}, meets u v → u.isSome ≤ v.isSome) (missed : Below next (f none) (g y.run))
    (both : ∀ s t, meets (some s) (some t) → Below next (f (some s)) (g (some t))) :
    Below next (x >>= f) (y >>= g) := by
  apply first.bind
  intro u below
  cases u with
  | none => exact missed
  | some s =>
      obtain ⟨t, there⟩ := Option.isSome_iff_exists.mp (found below rfl)
      rw [there] at below ⊢
      exact both s t below

theorem deeper {fallback : α} {work : Query α} {plain : Id β} (below : Below rel work plain)
    (least : rel fallback plain.run) : Below rel (deeper fallback work) plain := by
  intro context obeys
  rw [deeper_run]
  split
  · exact ⟨obeys, least⟩
  · exact below { context with depth := context.depth + 1 } obeys

theorem remembered {table : Table α} {fits : Ty → Ty → α → Prop} {a b : Ty} {work : Query α}
    {plain : Id β} (lawful : table.Lawful .cautious fits)
    (allowed : ∀ x, fits a b x ↔ rel x plain.run) (below : Below rel work plain) :
    Below rel (remembered table a b work) plain := by
  intro context obeys
  rw [remembered_run]
  have looked := lawful.look_obeys a b context obeys
  split
  · simp only
    split
    · next found => exact ⟨looked, (allowed _).mp (lawful.hit a b context _ obeys found)⟩
    · have done := below _ looked
      -- what was found under a cutoff could be recorded too, as far as caution goes
      split
      · exact ⟨lawful.record_obeys _ _ _ _ done.1 ((allowed _).mpr done.2), done.2⟩
      · exact done
  · exact below context obeys

end Below

structure Cautious (q : Queries Query) : Prop where
  subset : ∀ a b, Below (· ≤ ·) (q.subset a b) (Reference.queries.subset a b)
  meet : ∀ a b, Below (MeetBelow a b) (q.meet a b) (Reference.queries.meet a b)

namespace Cautious

variable {q : Queries Query}

theorem typeEqual (cautious : Cautious q) (a b : Ty) :
    Below (· ≤ ·) (Rules.typeEqual q a b) (Rules.typeEqual Reference.queries a b) :=
  (cautious.subset a b).test (cautious.subset b a)

theorem parametersEqual (cautious : Cautious q) (ps rs : List Parameter) :
    Below (· ≤ ·) (Rules.parametersEqual q ps rs)
      (Rules.parametersEqual Reference.queries ps rs) := by
  unfold Rules.parametersEqual
  split
  · apply Below.allM
    rintro ⟨p, r⟩ _
    simp only
    split
    · exact cautious.typeEqual p.ty r.ty
    · exact Below.same false
  · exact Below.same false

theorem typesMatch (cautious : Cautious q) (a b : Ty) :
    Below (· ≤ ·) (Rules.typesMatch q a b) (Rules.typesMatch Reference.queries a b) := by
  apply (cautious.meet a b).bind
  intro found below
  exact Below.pure below.found

theorem shapeSubset (cautious : Cautious q) (s t : Shape) :
    Below (· ≤ ·) (Rules.shapeSubset q s t) (Rules.shapeSubset Reference.queries s t) := by
  cases s <;> cases t <;> simp only [Rules.shapeSubset] <;>
    first
      | exact Below.same false
      | exact Below.same true
      | skip
  case named.named name ps other rs =>
    split
    · exact cautious.parametersEqual ps rs
    · exact Below.same false
  case function.function ps a rs b =>
    exact (cautious.parametersEqual ps rs).test (cautious.subset a b)
  case list.list a b => exact cautious.subset a b
  case tuple.tuple as bs =>
    split
    · apply Below.allM
      intro pair _
      exact cautious.subset pair.1 pair.2
    · exact Below.same false
  case dictionary.dictionary entries required =>
    apply Below.allM
    rintro ⟨key, needed⟩ _
    simp only
    split
    · exact Below.same false
    · next field _ => exact cautious.typesMatch field needed

theorem resolvedEqual (cautious : Cautious q) (a b : Ty) :
    Below (· ≤ ·) (Rules.resolvedEqual q a b) (Rules.resolvedEqual Reference.queries a b) := by
  unfold Rules.resolvedEqual
  split
  · exact cautious.shapeSubset _ _
  · exact Below.same false

theorem valueEqual (cautious : Cautious q) (u v : Value) :
    Below (· ≤ ·) (Rules.valueEqual q u v) (Rules.valueEqual Reference.queries u v) :=
  (cautious.shapeSubset u.shape v.shape).test (Below.same (u.payload == v.payload))

theorem covered (cautious : Cautious q) (subs sups : List Ty) :
    Below (· ≤ ·) (Rules.covered q subs sups) (Rules.covered Reference.queries subs sups) := by
  apply Below.allM
  intro sub _
  apply Below.anyM
  intro sup _
  exact cautious.subset sub sup

theorem coveredUnlessEmpty (cautious : Cautious q) (subs sups : List Ty) :
    Below (· ≤ ·) (if subs.isEmpty then pure true else Rules.covered q subs sups)
      (if subs.isEmpty then pure true else Rules.covered Reference.queries subs sups) := by
  split
  · exact Below.same true
  · exact cautious.covered subs sups

theorem subsetRule (cautious : Cautious q) (a b : Ty) :
    Below (· ≤ ·) (Rules.subset q a b) (Rules.subset Reference.queries a b) := by
  cases a with
  | literal u =>
      cases b with
      | literal v => exact cautious.valueEqual u v
      | union parts => exact cautious.subset (.resolved u.shape) (.union parts)
      | resolved t => exact cautious.subset (.resolved u.shape) (.resolved t)
  | union parts =>
      cases b with
      | literal v => exact Below.same _
      | union others => exact cautious.coveredUnlessEmpty _ _
      | resolved t => exact cautious.coveredUnlessEmpty _ _
  | resolved s =>
      cases b with
      | literal v => exact Below.same false
      | union parts => exact cautious.covered [.resolved s] (Ty.branchesOf parts)
      | resolved t => exact cautious.shapeSubset s t

/-- Pairs may be missed, but no pair meets that does not meet plainly. -/
theorem meetSome (cautious : Cautious q) (pairs : List (Ty × Ty)) :
    Below (MeetsBelow pairs) (Rules.meetSome q pairs) (Rules.meetSome Reference.queries pairs) := by
  induction pairs with
  | nil => exact Below.pure ⟨id, Nat.le_refl 0, List.forall_mem_nil _⟩
  | cons pair rest ih =>
      apply (cautious.meet pair.1 pair.2).bindSome MeetBelow.found
      · cases (Reference.queries.meet pair.1 pair.2).run with
        | none => exact ih.mono fun _ below => below.missed pair id
        | some ty => exact ih.mono fun _ below => below.missed pair fun _ => List.cons_ne_nil ty _
      · intro s t first
        apply ih.bind
        intro found below
        exact Below.pure (below.cons ⟨_, first⟩ t)

theorem meetEach (cautious : Cautious q) (pairs : List (Ty × Ty)) :
    Below (AllMeetBelow pairs) (Rules.meetEach q pairs)
      (Rules.meetEach Reference.queries pairs) := by
  induction pairs with
  | nil => exact Below.pure (.some [] .nil)
  | cons pair rest ih =>
      apply (cautious.meet pair.1 pair.2).bindSome MeetBelow.found
      · exact Below.pure (.none _ _)
      · intro s t first
        apply ih.bindSome AllMeetBelow.found
        · exact Below.pure (.none _ _)
        · intro others plain below
          exact Below.pure (.some _ (.cons ⟨_, first⟩ (below.each others rfl)))

theorem meetFields (cautious : Cautious q) (entries others : List (String × Ty)) :
    Below (FieldsBelow entries others) (Rules.meetFields q entries others)
      (Rules.meetFields Reference.queries entries others) := by
  induction others with
  | nil =>
      refine Below.pure ⟨id, List.Sublist.slnil, ?_⟩
      intro key ty member
      cases member
  | cons entry rest ih =>
      obtain ⟨key, other⟩ := entry
      simp only [Rules.meetFields]
      split
      · exact ih.mono fun _ below => below.missed (key, other) id
      · next field standing =>
          apply (cautious.meet field other).bindSome MeetBelow.found
          · cases (Reference.queries.meet field other).run with
            | none => exact ih.mono fun _ below => below.missed (key, other) id
            | some ty =>
                exact ih.mono fun _ below =>
                  below.missed (key, other) fun _ => List.cons_ne_nil (key, ty) _
          · intro s t first
            apply ih.bind
            intro found below
            exact Below.pure (below.cons standing ⟨_, first⟩ t)

theorem meetAll (cautious : Cautious q) (as bs : List Ty) :
    Below (MeetBelow (.union as) (.union bs)) (Rules.meetAll q as bs)
      (Rules.meetAll Reference.queries as bs) := by
  apply (cautious.meetSome _).bind
  intro found below
  apply Below.pure
  refine .union (.inl rfl) ?_ fun ordered ty collapsed => ?_
  · intro collapsed
    exact (Ty.collapse_isSome _).mpr (below.found ((Ty.collapse_isSome _).mp collapsed))
  · have few := below.few
    rw [Rules.length_crossPairs] at few
    refine .branches few (fun branch member => ?_) collapsed
    obtain ⟨⟨x, y⟩, pair, plain, met⟩ := below.each branch member
    obtain ⟨inA, inB⟩ := Rules.mem_crossPairs.mp pair
    have single := met.single (Ty.isUnion_of_mem_branchesOf inA) (Ty.isUnion_of_mem_branchesOf inB)
    exact ⟨(single branch rfl).1, x, inA, y, inB,
      met.met (ordered.branch (Ty.mem_branches_union.mpr inB)) branch rfl⟩

theorem meetFunctions (cautious : Cautious q) (ps rs : List Parameter) (a b : Ty) :
    Below (ShapeMeetBelow (.function ps a) (.function rs b)) (Rules.meetFunctions q ps a rs b)
      (Rules.meetFunctions Reference.queries ps a rs b) := by
  unfold Rules.meetFunctions
  split
  · next lengths =>
      apply (cautious.meetEach _).bindSome AllMeetBelow.found
      · exact Below.pure (.none _ _ _)
      · intro tys plain parameters
        apply (cautious.meet a b).bindSome MeetBelow.found
        · exact Below.pure (.none _ _ _)
        · intro result other met
          refine Below.pure (.other _ rfl fun ordered => ?_)
          refine .function lengths
            (MayMeet.partly_each (parameters.each tys rfl) fun pair inside => ?_) ?_
          · exact ordered.of_mem_parts rfl (List.mem_cons_of_mem _ (List.of_mem_zip inside).2)
          · exact met.met (ordered.of_mem_parts rfl List.mem_cons_self) result rfl
  · exact Below.pure (.none _ _ _)

theorem meetShapes (cautious : Cautious q) (s t : Shape) :
    Below (ShapeMeetBelow s t) (Rules.meetShapes q s t)
      (Rules.meetShapes Reference.queries s t) := by
  cases s <;> cases t <;> simp only [Rules.meetShapes] <;>
    first
      | exact Below.pure (.none _ _ _)
      | skip
  case number.number => exact Below.pure (.same rfl .number)
  case text.text => exact Below.pure (.same rfl .text)
  case logic.logic => exact Below.pure (.same rfl .logic)
  case void.void => exact Below.pure (.same rfl .void)
  case named.named name ps other rs =>
    refine (cautious.shapeSubset _ _).keepIf (.none _ _) fun passed => .other _ rfl fun _ => ?_
    have below : Reference.ShapeMeet (.named name ps) (.named other rs) (.named name ps) :=
      .named ((Reference.shapeSubset_iff _ _).mp passed)
    exact .atom rfl rfl ((Reference.meet_resolved_iff _ _ _).mpr ⟨_, rfl, below⟩) rfl
  case function.function ps a rs b => exact cautious.meetFunctions ps rs a b
  case list.list a b =>
    apply (cautious.meet a b).bindSome MeetBelow.found
    · exact Below.pure (.none _ _ _)
    · intro element other met
      refine Below.pure (.other _ rfl fun ordered => .list ?_)
      exact met.met (ordered.of_mem_parts rfl (List.mem_singleton_self b)) element rfl
  case tuple.tuple as bs =>
    split
    · next lengths =>
        apply (cautious.meetEach _).bindSome AllMeetBelow.found
        · exact Below.pure (.none _ _ _)
        · intro elements others met
          refine Below.pure (.other _ rfl fun ordered => ?_)
          refine .tuple lengths (MayMeet.partly_each (met.each elements rfl) fun pair inside => ?_)
          exact ordered.of_mem_parts rfl (List.of_mem_zip inside).2
    · exact Below.pure (.none _ _ _)
  case dictionary.dictionary entries others =>
    apply (cautious.meetFields entries others).bind
    intro fields below
    cases fields with
    | nil => exact Below.pure (.none _ _ _)
    | cons field rest =>
        have kept := List.cons_ne_nil field rest
        obtain ⟨other, more, there⟩ := List.exists_cons_of_ne_nil (below.found kept)
        rw [there]
        refine Below.pure (.other _ rfl fun ordered => ?_)
        have order := ordered.here (List.mem_singleton_self _) others rfl
        refine .dictionary order kept below.keys fun key part member => ?_
        obtain ⟨x, y, standing, inside, met⟩ := below.each key part member
        exact ⟨x, y, standing, inside,
          met.partly (ordered.of_mem_parts rfl (List.mem_map_of_mem inside))⟩

theorem meetRule (cautious : Cautious q) (a b : Ty) :
    Below (MeetBelow a b) (Rules.meet q a b) (Rules.meet Reference.queries a b) := by
  cases a with
  | union parts => exact (cautious.meetAll [.union parts] [b]).mono fun _ => .of_unions (.inl rfl)
  | literal u =>
      cases b with
      | union parts =>
          exact (cautious.meetAll [.literal u] [.union parts]).mono fun _ => .of_unions (.inr rfl)
      | literal v =>
          apply (cautious.valueEqual u v).keepIf (.none _ _)
          intro equal
          have inside : Reference.subset (.literal u) (.literal v) = true :=
            Reference.subset_of_rule equal
          have plain := (Reference.meet_literals u v).trans (if_pos equal)
          exact .literal rfl rfl (fun primitive =>
            ⟨rfl, Reference.carrier_of_literal_subset rfl inside primitive⟩) plain
      | resolved t =>
          apply (cautious.subset (.literal u) (.resolved t)).keepIf (.none _ _)
          intro inside
          have plain := (Reference.meet_literal_resolved u t).trans (if_pos inside)
          exact .literal rfl rfl (fun primitive =>
            ⟨rfl, Reference.carrier_of_literal_subset rfl inside primitive⟩) plain
  | resolved s =>
      cases b with
      | union parts =>
          exact (cautious.meetAll [.resolved s] [.union parts]).mono fun _ => .of_unions (.inr rfl)
      | literal v =>
          apply (cautious.subset (.literal v) (.resolved s)).keepIf (.none _ _)
          intro inside
          have plain := (Reference.meet_resolved_literal s v).trans (if_pos inside)
          exact .literal rfl rfl (fun primitive =>
            ⟨Reference.carrier_of_literal_subset rfl inside primitive, rfl⟩) plain
      | resolved t =>
          apply (cautious.meetShapes s t).bindSome ShapeMeetBelow.found
          · exact Below.pure (.none _ _ _)
          · intro shape other below
            apply Below.pure
            constructor
            · exact Bool.le_refl _
            · intro _ _ ty same
              cases same
              refine ⟨rfl, fun primitive => ?_⟩
              obtain ⟨rfl, rfl, plain⟩ := below.primitive shape rfl primitive
              cases plain
              exact ⟨rfl, rfl, BEq.refl _⟩
            · intro ordered ty same
              cases same
              exact below.met ordered shape rfl

/-- The common type of branches that each stand for themselves. Under a cutoff it may be less
than the plain one, and then the next branch is met with less; but if a primitive is left in
the end, all branches counted as that primitive. -/
theorem meetFrom (cautious : Cautious q) {ty : Ty} {rest : List Ty} (single : ty.isUnion = false)
    (others : ∀ other ∈ rest, other.isUnion = false) :
    Below (ReduceBelow (ty :: rest)) (Rules.meetFrom q ty rest)
      (Rules.meetFrom Reference.queries ty rest) := by
  induction rest generalizing ty with
  | nil =>
      apply Below.pure
      intro common same _
      cases same
      constructor
      · exact BEq.refl _
      · intro branch member
        rw [List.mem_singleton.mp member]
  | cons next rest ih =>
      apply (cautious.meet ty next).bindSome MeetBelow.found
      · exact Below.pure (.none _ _)
      · intro found plain below
        obtain ⟨one, primitives⟩ := below.single single (others next List.mem_cons_self) found rfl
        have tail := ih one fun other member => others other (List.mem_cons_of_mem next member)
        apply tail.mono
        intro result reduced common same primitive
        obtain ⟨answer, carriers⟩ := reduced common same primitive
        -- the primitive goes back through every step, so no step lost anything
        have carrier : found.carrier = common.carrier := carriers found List.mem_cons_self
        obtain ⟨left, right, equal⟩ := primitives (carrier ▸ primitive)
        have plainly : (Rules.meetFrom Reference.queries plain rest).run ==
            (Rules.meetFrom Reference.queries found rest).run :=
          (Reference.queries_agree .equality).meetFrom equal (BEq.refl rest)
        constructor
        · exact PartialEquivBEq.trans plainly answer
        · intro branch member
          rcases List.mem_cons.mp member with rfl | member
          · exact left.trans carrier
          · rcases List.mem_cons.mp member with rfl | member
            · exact right.trans carrier
            · exact carriers branch (List.mem_cons_of_mem found member)

theorem reduce (cautious : Cautious q) (ty : Ty) :
    Below (ReduceBelow ty.branches) (Rules.reduce q ty) (Rules.reduce Reference.queries ty) := by
  have alone : ∀ other ∈ ([] : List Ty), other.isUnion = false := List.forall_mem_nil _
  cases ty with
  | literal u => exact cautious.meetFrom rfl alone
  | resolved s => exact cautious.meetFrom rfl alone
  | union parts =>
      have singles := fun branch => @Ty.isUnion_of_mem_branchesOf branch parts
      simp only [Rules.reduce, Ty.branches]
      generalize Ty.branchesOf parts = branches at singles ⊢
      cases branches with
      | nil => exact Below.pure (.none _ _)
      | cons first rest =>
          apply cautious.meetFrom (singles first List.mem_cons_self)
          intro other member
          exact singles other (List.mem_cons_of_mem first member)

end Cautious

theorem within_cautious (steps : Nat) : Cautious (within steps) := by
  induction steps with
  | zero =>
      constructor
      · intro a b
        exact Below.missed _
      · intro a b
        exact Below.pure (.none a b _)
  | succ steps ih =>
      constructor
      · intro a b
        simp only [within]
        split
        · next equal =>
            apply Below.pure
            intro _
            exact Reference.subset_of_equal equal
        · apply Below.remembered (subsets_lawful .cautious) (fun _ => Iff.rfl)
          apply Below.deeper _ (Bool.false_le _)
          apply (ih.subsetRule a b).mono
          intro holds below affirmed
          exact Reference.subset_of_rule (below affirmed)
      · intro a b
        apply Below.remembered (meets_lawful .cautious) (fun _ => Iff.rfl)
        apply Below.deeper _ (.none a b _)
        apply (ih.meetRule a b).mono
        intro found below
        change MeetBelow a b found (Reference.meet a b)
        rw [Reference.meet_eq]
        exact below

theorem queries_cautious : Cautious queries := by
  constructor
  · intro a b
    exact (within_cautious _).subset a b
  · intro a b
    exact (within_cautious _).meet a b

end Query

end StructuralTypes
