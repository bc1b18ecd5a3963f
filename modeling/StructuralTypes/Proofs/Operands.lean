import StructuralTypes.Proofs.Branchwise
import StructuralTypes.Proofs.Depth
import StructuralTypes.Proofs.Histories
import StructuralTypes.Proofs.Overlap

/-!
Which operands are accepted. What the branches of a type have in common is a primitive exactly if
every branch is that primitive or a literal of it, with one payload for all the literals. That no
other branches can come to a primitive is known of every context, since it never answers more than
the plain rules. That these branches do come to it takes no more than two levels: the meet of a
literal and its classifier asks whether the one is below the other, and there the classifiers are
equal, which is seen at once.
-/

namespace StructuralTypes

namespace Ty

/-- Every branch is of a shape or a literal of that shape, and the literals have equal payloads. -/
structure Uniform (ty : Ty) (shape : Shape) : Prop where
  inhabited : ty.branches ≠ []
  shapes : ∀ branch ∈ ty.branches,
    branch = .resolved shape ∨ ∃ value, branch = .literal value ∧ value.shape = shape
  payloads : ∀ u v, .literal u ∈ ty.branches → .literal v ∈ ty.branches → u.payload == v.payload

inductive Offers (shape : Shape) (payload : Payload) : Ty → Prop where
  | whole : Offers shape payload (.resolved shape)
  | value {u : Value} (shapes : u.shape = shape) (payloads : u.payload == payload) :
      Offers shape payload (.literal u)

variable {shape : Shape} {payload : Payload} {a b : Ty}

theorem Offers.carrier (offers : a.Offers shape payload) : a.carrier = .resolved shape := by
  cases offers with
  | whole => rfl
  | value shapes _ => exact congrArg Ty.resolved shapes

theorem exists_offers (carrier : a.carrier = .resolved shape) :
    ∃ payload, a.Offers shape payload := by
  cases a with
  | literal u => exact ⟨u.payload, .value (Ty.resolved.inj carrier) (BEq.refl _)⟩
  | union parts => cases carrier
  | resolved s =>
      cases carrier
      exact ⟨.void, .whole⟩

theorem Offers.congr (primitive : shape.isPrimitive = true) (offers : a.Offers shape payload)
    (same : a == b) : b.Offers shape payload := by
  have carriers : a.carrier = b.carrier :=
    eq_of_equal_primitive (carrier_equal same) (offers.carrier ▸ primitive)
  rw [offers.carrier] at carriers
  cases alike_of_equal same with
  | literal payloads _ =>
      cases offers with
      | value _ equal =>
          exact .value (Ty.resolved.inj carriers.symm)
            (PartialEquivBEq.trans (BEq.symm payloads) equal)
  | union _ => cases carriers
  | resolved _ =>
      cases carriers
      exact .whole

theorem uniform_iff : a.Uniform shape ↔
    a.branches ≠ [] ∧ ∃ payload, ∀ branch ∈ a.branches, branch.Offers shape payload := by
  constructor
  · intro uniform
    refine ⟨uniform.inhabited, ?_⟩
    by_cases literal : ∃ value, .literal value ∈ a.branches
    · obtain ⟨value, member⟩ := literal
      refine ⟨value.payload, fun branch inside => ?_⟩
      rcases uniform.shapes branch inside with rfl | ⟨other, rfl, shapes⟩
      · exact .whole
      · exact .value shapes (uniform.payloads other value inside member)
    · refine ⟨.void, fun branch inside => ?_⟩
      rcases uniform.shapes branch inside with rfl | ⟨other, rfl, -⟩
      · exact .whole
      · exact absurd ⟨other, inside⟩ literal
  · rintro ⟨inhabited, payload, offers⟩
    refine ⟨inhabited, fun branch inside => ?_, fun u v inU inV => ?_⟩
    · cases offers branch inside with
      | whole => exact .inl rfl
      | value shapes _ => exact .inr ⟨_, rfl, shapes⟩
    · cases offers _ inU with
      | value _ left =>
          cases offers _ inV with
          | value _ right => exact PartialEquivBEq.trans left (BEq.symm right)

theorem Uniform.of_sameBranches (primitive : shape.isPrimitive = true) (same : a.SameBranches b)
    (uniform : a.Uniform shape) : b.Uniform shape := by
  obtain ⟨inhabited, payload, offers⟩ := uniform_iff.mp uniform
  refine uniform_iff.mpr ⟨?_, payload, fun other there => ?_⟩
  · obtain ⟨branch, inside⟩ := List.exists_mem_of_ne_nil _ inhabited
    obtain ⟨other, there, -⟩ := same.left branch inside
    exact List.ne_nil_of_mem there
  · obtain ⟨branch, inside, equal⟩ := same.right other there
    exact (offers branch inside).congr primitive equal

theorem uniform_congr (primitive : shape.isPrimitive = true) (same : a.SameBranches b) :
    a.Uniform shape ↔ b.Uniform shape :=
  ⟨Uniform.of_sameBranches primitive same, Uniform.of_sameBranches primitive same.symm⟩

end Ty

namespace Reference

variable {shape : Shape} {payload : Payload} {x y common : Ty}

theorem meet_offers (primitive : shape.isPrimitive = true) (left : x.Offers shape payload)
    (right : y.Offers shape payload) : ∃ common, meet x y = some common ∧
      common.Offers shape payload := by
  cases left with
  | whole =>
      cases right with
      | whole =>
          exact ⟨_, (meet_resolved_iff _ _ _).mpr ⟨_, rfl, .of_primitive primitive⟩, .whole⟩
      | value shapes payloads =>
          refine ⟨_, ?_, .value shapes payloads⟩
          rw [meet_resolved_literal, subset_literal_resolved, shapes, if_pos (subset_refl _)]
  | @value u shapes payloads =>
      cases right with
      | whole =>
          refine ⟨_, ?_, .value shapes payloads⟩
          rw [meet_literal_resolved, subset_literal_resolved, shapes, if_pos (subset_refl _)]
      | @value v others equal =>
          refine ⟨_, ?_, .value shapes payloads⟩
          rw [meet_literals, if_pos]
          rw [valueEqual_iff, shapes, others]
          exact ⟨.of_primitive primitive, PartialEquivBEq.trans payloads (BEq.symm equal)⟩

/-- The meet of two types that count as one primitive counts as it too, and what it offers both
of them offer. -/
theorem meet_of_carriers (primitive : shape.isPrimitive = true)
    (left : x.carrier = .resolved shape) (right : y.carrier = .resolved shape)
    (met : meet x y = some common) : common.carrier = .resolved shape ∧
      ∀ payload, common.Offers shape payload →
        x.Offers shape payload ∧ y.Offers shape payload := by
  cases x with
  | union parts => cases left
  | literal u =>
      cases y with
      | union parts => cases right
      | literal v =>
          rw [meet_literals, Option.ite_none_right_eq_some, valueEqual_iff] at met
          cases met.2
          refine ⟨left, fun payload offers => ?_⟩
          cases offers with
          | value shapes payloads =>
              refine ⟨.value shapes payloads, .value (Ty.resolved.inj right) ?_⟩
              exact PartialEquivBEq.trans (BEq.symm met.1.2) payloads
      | resolved t =>
          rw [meet_literal_resolved, Option.ite_none_right_eq_some] at met
          cases met.2
          cases right
          exact ⟨left, fun _ offers => ⟨offers, .whole⟩⟩
  | resolved s =>
      cases left
      cases y with
      | union parts => cases right
      | literal v =>
          rw [meet_resolved_literal, Option.ite_none_right_eq_some] at met
          cases met.2
          exact ⟨right, fun _ offers => ⟨.whole, offers⟩⟩
      | resolved t =>
          cases right
          obtain ⟨_, rfl, ground⟩ := (meet_resolved_iff _ _ _).mp met
          refine ⟨?_, fun _ _ => ⟨.whole, .whole⟩⟩
          cases ground <;> first | rfl | cases primitive

theorem offers_of_meetFrom (primitive : shape.isPrimitive = true) {rest : List Ty}
    (carriers : ∀ ty ∈ x :: rest, ty.carrier = .resolved shape)
    (found : (Rules.meetFrom queries x rest).run = some common) :
    ∃ payload, ∀ ty ∈ x :: rest, ty.Offers shape payload := by
  induction rest generalizing x with
  | nil =>
      obtain ⟨payload, offers⟩ := Ty.exists_offers (carriers x List.mem_cons_self)
      exact ⟨payload, List.forall_mem_singleton.mpr offers⟩
  | cons next rest ih =>
      rw [meetFrom_cons] at found
      obtain ⟨ty, met, later⟩ := Option.bind_eq_some_iff.mp found
      have left := carriers x List.mem_cons_self
      have right := carriers next (List.mem_cons_of_mem x List.mem_cons_self)
      have others : ∀ ty ∈ rest, ty.carrier = .resolved shape := fun ty inside =>
        carriers ty (List.mem_cons_of_mem x (List.mem_cons_of_mem next inside))
      obtain ⟨carrier, back⟩ := meet_of_carriers primitive left right met
      obtain ⟨payload, offers⟩ := ih (List.forall_mem_cons.mpr ⟨carrier, others⟩) later
      obtain ⟨first, rest⟩ := List.forall_mem_cons.mp offers
      obtain ⟨one, two⟩ := back payload first
      exact ⟨payload, List.forall_mem_cons.mpr ⟨one, List.forall_mem_cons.mpr ⟨two, rest⟩⟩⟩

end Reference

namespace Query

variable [PairKey]

variable {shape : Shape} {payload other : Payload} {x y : Ty}

theorem subset_roomy (u : Value) (steps : Nat) :
    Roomy 1 ((within steps).subset (.literal u) (.resolved u.shape)) := by
  have classifier : ∀ steps, Roomy 0 ((within steps).subset (.resolved u.shape)
      (.resolved u.shape)) := by
    intro steps
    cases steps with
    | zero => exact .pure false
    | succ k =>
        simp only [within, BEq.refl, if_true]
        exact .pure true
  cases steps with
  | zero => exact .pure false
  | succ k =>
      simp only [within]
      split
      · exact .pure true
      · exact .remembered subsets_still (subsets_lawful .plain) _ _ ((classifier k).deeper false)

theorem shapeSubset_roomy (primitive : shape.isPrimitive = true) (q : Queries Query) :
    Roomy 1 (Rules.shapeSubset q shape shape) := by
  cases shape <;> first | exact .pure _ | cases primitive

theorem meetShapes_roomy (primitive : shape.isPrimitive = true) (q : Queries Query) :
    Roomy 1 (Rules.meetShapes q shape shape) := by
  cases shape <;> first | exact .pure _ | cases primitive

theorem meet_roomy (primitive : shape.isPrimitive = true) (left : x.Offers shape payload)
    (right : y.Offers shape other) (steps : Nat) : Roomy 2 ((within steps).meet x y) := by
  cases steps with
  | zero => exact .pure none
  | succ k =>
      refine .remembered meets_still (meets_lawful .plain) x y (Roomy.deeper none ?_)
      cases left with
      | whole =>
          cases right with
          | whole =>
              refine (meetShapes_roomy primitive _).bind fun found => ?_
              cases found <;> exact .pure _
          | value shapes _ =>
              cases shapes
              refine (subset_roomy _ k).bind fun holds => ?_
              cases holds <;> exact .pure _
      | @value u shapes _ =>
          cases shapes
          cases right with
          | whole =>
              refine (subset_roomy u k).bind fun holds => ?_
              cases holds <;> exact .pure _
          | @value v others _ =>
              have values : Roomy 1 (Rules.valueEqual (within k) u v) := by
                unfold Rules.valueEqual
                rw [others]
                refine (shapeSubset_roomy primitive _).bind fun holds => ?_
                cases holds <;> exact .pure _
              refine values.bind fun holds => ?_
              cases holds <;> exact .pure _

end Query

namespace Context

variable [PairKey]

open Query (queries)

variable {context : Context} {shape : Shape} {payload : Payload} {ty x : Ty}

theorem Reached.settles_meet (reached : context.Reached) (room : 2 ≤ context.config.maxDepth)
    (primitive : shape.isPrimitive = true) {y : Ty} (left : x.Offers shape payload)
    (right : y.Offers shape payload) : context.Settles (.meet x y) := by
  apply (Query.meet_roomy primitive left right _).clean context
  rw [reached.depth]
  omega

/-- Branches that offer one payload have it in common, and the context finds it. Each meet is the
plain one, since it is not cut short. -/
theorem Reached.meetFrom_offers (reached : context.Reached) (room : 2 ≤ context.config.maxDepth)
    (primitive : shape.isPrimitive = true) {rest : List Ty}
    (offers : ∀ ty ∈ x :: rest, ty.Offers shape payload) :
    ∃ common, ((Rules.meetFrom queries x rest).run context).1 = some common ∧
      common.Offers shape payload := by
  induction rest generalizing x context with
  | nil => exact ⟨x, rfl, offers x List.mem_cons_self⟩
  | cons next rest ih =>
      obtain ⟨left, later⟩ := List.forall_mem_cons.mp offers
      obtain ⟨right, others⟩ := List.forall_mem_cons.mp later
      obtain ⟨plain, met, held⟩ := Reference.meet_offers primitive left right
      have answer := reached.found_plain (reached.settles_meet room primitive left right)
      rw [met] at answer
      obtain ⟨common, found, same⟩ := exists_equal_some (BEq.symm answer)
      have step : ((queries.meet x next).run context).1 = some common := found
      have asks := Query.Asks.meet x next
      have roomAfter : 2 ≤ ((Query.meet x next).run context).2.config.maxDepth := by
        rw [config_after asks]
        exact room
      obtain ⟨result, rest, fits⟩ := ih (reached.after asks) roomAfter
        (List.forall_mem_cons.mpr ⟨held.congr primitive same, others⟩)
      refine ⟨result, ?_, fits⟩
      simp only [Rules.meetFrom, Query.bind_run, step]
      exact rest

theorem Reached.reduce_carrier_iff (reached : context.Reached) (room : 2 ≤ context.config.maxDepth)
    (primitive : shape.isPrimitive = true) :
    ((Query.reduce ty).run context).1.map Ty.carrier = some (.resolved shape) ↔
      ty.Uniform shape := by
  rw [Option.map_eq_some_iff, Ty.uniform_iff]
  constructor
  · rintro ⟨common, found, carrier⟩
    have obeys : context.cache.Obeys .cautious := by
      obtain ⟨config, requests, rfl⟩ := reached
      exact Request.reached_cautious config requests
    have counts : common.carrier.isPrimitive = true := by
      rw [carrier]
      exact primitive
    obtain ⟨plain, carriers⟩ :=
      (Query.queries_cautious.reduce ty context obeys).2 common found counts
    obtain ⟨reduced, answer, -⟩ := Query.carrier_of_equal plain counts
    rw [carrier] at carriers
    rw [Rules.reduce_eq] at answer
    cases branches : ty.branches with
    | nil =>
        rw [branches] at answer
        cases answer
    | cons first rest =>
        rw [branches] at answer carriers
        exact ⟨List.cons_ne_nil first rest,
          Reference.offers_of_meetFrom primitive carriers answer⟩
  · rintro ⟨inhabited, payload, offers⟩
    rw [Query.reduce, Rules.reduce_eq]
    cases branches : ty.branches with
    | nil => exact absurd branches inhabited
    | cons first rest =>
        rw [branches] at offers
        obtain ⟨common, found, held⟩ := reached.meetFrom_offers room primitive offers
        exact ⟨common, found, held.carrier⟩

end Context

namespace Check

variable [PairKey]

open Query (queries)

theorem chunk_run (ty : Ty) (context : Context) : ((chunk queries ty).run.run context).1 =
    match ((Query.reduce ty).run context).1.map Ty.carrier with
    | some (.resolved .text) => .ok .text
    | some (.resolved .number) => .ok .number
    | _ => .error (.notDisplayable ty) := by
  unfold chunk
  rw [ExceptT.run_bind_lift, Query.bind_run]
  change ((match ((Query.reduce ty).run context).1.map Ty.carrier with
    | some (.resolved .text) => (pure .text : ExceptT BindError Query Ty)
    | some (.resolved .number) => pure .number
    | _ => throw (BindError.notDisplayable ty)).run.run ((Query.reduce ty).run context).2).1 = _
  split <;> rfl

theorem operand_run (ty : Ty) (context : Context) : ((operand queries ty).run.run context).1 =
    match ((Query.reduce ty).run context).1 with
    | none => .error (.irreducibleOperand ty)
    | some reduced => .ok reduced.carrier := by
  unfold operand
  rw [ExceptT.run_bind_lift, Query.bind_run]
  change ((match ((Query.reduce ty).run context).1 with
    | none => (throw (BindError.irreducibleOperand ty) : ExceptT BindError Query Ty)
    | some reduced => pure reduced.carrier).run.run ((Query.reduce ty).run context).2).1 = _
  split <;> rfl

end Check

namespace Context

variable [PairKey]

open Query (queries)

variable {context : Context} {shape : Shape} {ty : Ty}

theorem Reached.chunk_ok_iff (reached : context.Reached) (room : 2 ≤ context.config.maxDepth)
    (kind : shape = .text ∨ shape = .number) :
    ((Check.chunk queries ty).run.run context).1 = .ok (.resolved shape) ↔ ty.Uniform shape := by
  have primitive : shape.isPrimitive = true := by rcases kind with rfl | rfl <;> rfl
  rw [Check.chunk_run, ← reached.reduce_carrier_iff room primitive]
  constructor
  · intro passed
    split at passed
    · next carried => cases passed; exact carried
    · next carried => cases passed; exact carried
    · cases passed
  · intro carried
    rw [carried]
    rcases kind with rfl | rfl <;> rfl

theorem Reached.chunk_passes_iff (reached : context.Reached) (room : 2 ≤ context.config.maxDepth)
    {result : Ty} : ((Check.chunk queries ty).run.run context).1 = .ok result ↔
      ∃ shape, (shape = .text ∨ shape = .number) ∧ result = .resolved shape ∧ ty.Uniform shape := by
  constructor
  · intro passed
    have kind : result = .text ∨ result = .number := by
      rw [Check.chunk_run] at passed
      split at passed
      · cases passed
        exact .inl rfl
      · cases passed
        exact .inr rfl
      · cases passed
    rcases kind with rfl | rfl
    · exact ⟨.text, .inl rfl, rfl, (reached.chunk_ok_iff room (.inl rfl)).mp passed⟩
    · exact ⟨.number, .inr rfl, rfl, (reached.chunk_ok_iff room (.inr rfl)).mp passed⟩
  · rintro ⟨shape, kind, rfl, uniform⟩
    exact (reached.chunk_ok_iff room kind).mpr uniform

theorem Reached.chunk_refused (reached : context.Reached) (room : 2 ≤ context.config.maxDepth)
    (number : ¬ ty.Uniform .number) (text : ¬ ty.Uniform .text) :
    ((Check.chunk queries ty).run.run context).1 = .error (.notDisplayable ty) := by
  rw [Check.chunk_run]
  split
  · next carried => exact absurd ((reached.reduce_carrier_iff room rfl).mp carried) text
  · next carried => exact absurd ((reached.reduce_carrier_iff room rfl).mp carried) number
  · rfl

theorem Reached.operand_ok_iff (reached : context.Reached) (room : 2 ≤ context.config.maxDepth)
    (primitive : shape.isPrimitive = true) :
    ((Check.operand queries ty).run.run context).1 = .ok (.resolved shape) ↔ ty.Uniform shape := by
  rw [Check.operand_run, ← reached.reduce_carrier_iff room primitive]
  cases ((Query.reduce ty).run context).1 with
  | none => simp
  | some reduced => simp

theorem Reached.binary_ok_iff (reached : context.Reached) (room : 2 ≤ context.config.maxDepth)
    {operator : Operator} {left right result : Ty} :
    ((Check.binary queries operator left right).run.run context).1 = .ok result ↔
      ∃ p q, left.Uniform p ∧ right.Uniform q ∧
        operator.resultType (.resolved p) (.resolved q) = some result := by
  have asks := Check.operand_asks left
  have after := reached.after asks
  have roomAfter := room
  rw [← config_after asks] at roomAfter
  unfold Check.binary
  constructor
  · intro passed
    rw [Query.check_run] at passed
    split at passed
    · next l first =>
        rw [Query.check_run] at passed
        split at passed
        · next r second =>
            cases outcome : operator.resultType l r with
            | none =>
                rw [outcome] at passed
                cases passed
            | some ty =>
                rw [outcome] at passed
                cases passed
                obtain ⟨one, two⟩ := Operator.primitive_of_resultType outcome
                cases l with
                | resolved p =>
                    cases r with
                    | resolved q =>
                        exact ⟨p, q, (reached.operand_ok_iff room one).mp first,
                          (after.operand_ok_iff roomAfter two).mp second, outcome⟩
                    | _ => cases two
                | _ => cases one
        · cases passed
    · cases passed
  · rintro ⟨p, q, uniform, other, outcome⟩
    obtain ⟨one, two⟩ := Operator.primitive_of_resultType outcome
    have first := (reached.operand_ok_iff room one).mpr uniform
    have second := (after.operand_ok_iff roomAfter two).mpr other
    rw [Query.check_run, first]
    dsimp only
    rw [Query.check_run, second]
    dsimp only
    rw [outcome]
    rfl

end Context

/-- On a checker of two levels or more, whatever it was used for, a chunk passes exactly if it is
uniformly a number or a text and is refused otherwise, and an operator takes exactly the operands
that are uniform in shapes that it has a result for. So only the branches count, and not how they
are ordered, grouped or repeated. -/
theorem uniform_operands_accepted [PairKey] (config : Config) (uses : List Use)
    (room : 2 ≤ config.maxDepth) :
    let context := Use.history uses (Context.new config)
    (∀ ty, let outcome := ((Check.chunk Query.queries ty).run.run context).1
      (outcome = .ok .number ↔ ty.Uniform .number) ∧ (outcome = .ok .text ↔ ty.Uniform .text) ∧
      (¬ ty.Uniform .number → ¬ ty.Uniform .text → outcome = .error (.notDisplayable ty))) ∧
    (∀ operator left right result,
      ((Check.binary Query.queries operator left right).run.run context).1 = .ok result ↔
        ∃ p q, left.Uniform p ∧ right.Uniform q ∧
          operator.resultType (.resolved p) (.resolved q) = some result) ∧
    ∀ (other : Config) (others : List Use), 2 ≤ other.maxDepth →
      let second := Use.history others (Context.new other)
      (∀ ty written result, ty.SameBranches written →
        (((Check.chunk Query.queries ty).run.run context).1 = .ok result ↔
          ((Check.chunk Query.queries written).run.run second).1 = .ok result)) ∧
      ∀ operator left right one two result, left.SameBranches one → right.SameBranches two →
        (((Check.binary Query.queries operator left right).run.run context).1 = .ok result ↔
          ((Check.binary Query.queries operator one two).run.run second).1 = .ok result) := by
  intro context
  have used : ∀ (config : Config) (uses : List Use), 2 ≤ config.maxDepth →
      (Use.history uses (Context.new config)).Reached ∧
        2 ≤ (Use.history uses (Context.new config)).config.maxDepth := by
    intro config uses room
    rw [Context.config_used]
    exact ⟨Context.reached_used uses config, room⟩
  obtain ⟨reached, room⟩ := used config uses room
  refine ⟨fun ty => ⟨reached.chunk_ok_iff room (.inr rfl), reached.chunk_ok_iff room (.inl rfl),
    reached.chunk_refused room⟩, fun operator left right result => reached.binary_ok_iff room, ?_⟩
  intro other others otherRoom
  obtain ⟨reachedSecond, roomSecond⟩ := used other others otherRoom
  constructor
  · intro ty written result same
    rw [reached.chunk_passes_iff room, reachedSecond.chunk_passes_iff roomSecond]
    refine exists_congr fun shape => and_congr_right fun kind => and_congr_right fun _ => ?_
    rcases kind with rfl | rfl <;> exact Ty.uniform_congr rfl same
  · intro operator left right one two result sameLeft sameRight
    rw [reached.binary_ok_iff room, reachedSecond.binary_ok_iff roomSecond]
    refine exists₂_congr fun p q => ?_
    constructor
    · rintro ⟨first, second, outcome⟩
      obtain ⟨primitive, otherPrimitive⟩ := Operator.primitive_of_resultType outcome
      exact ⟨first.of_sameBranches primitive sameLeft,
        second.of_sameBranches otherPrimitive sameRight, outcome⟩
    · rintro ⟨first, second, outcome⟩
      obtain ⟨primitive, otherPrimitive⟩ := Operator.primitive_of_resultType outcome
      exact ⟨first.of_sameBranches primitive sameLeft.symm,
        second.of_sameBranches otherPrimitive sameRight.symm, outcome⟩

def Ty.salutation : Ty := .union [.literal (.text "hi"), .text]

def Ty.salutations : Ty := .union [.union [.text, .literal (.text "hi")], .literal (.text "hi")]

def Use.twoLevels : List Use :=
  [.request (.ask .scalarLists), .chunk .numberOrText,
    .act .empty (.template [⟨.text "hi", .salutation⟩])]

theorem uniform_operands_accepted_salutations :
    let context := Use.history Use.twoLevels (Context.new ⟨true, 2, 1⟩)
    0 < context.cutoffs ∧ Ty.salutation.Uniform .text ∧
    Ty.salutation.SameBranches .salutations ∧
    ((Check.chunk Query.queries .salutation).run.run context).1 = .ok .text ∧
    ((Check.chunk Query.queries .salutations).run.run context).1 = .ok .text ∧
    ((Check.binary Query.queries .multiply .salutations .two).run.run context).1 = .ok .text ∧
    ((Check.chunk Query.queries .numberOrText).run.run context).1 =
      .error (.notDisplayable .numberOrText) := by
  have cut : 0 < (Use.history Use.twoLevels (Context.new ⟨true, 2, 1⟩)).cutoffs := by cbv
  intro context
  obtain ⟨chunks, binaries, branches⟩ :=
    uniform_operands_accepted ⟨true, 2, 1⟩ Use.twoLevels (Nat.le_refl 2)
  obtain ⟨written, -⟩ := branches ⟨true, 2, 1⟩ Use.twoLevels (Nat.le_refl 2)
  have here : Ty.salutation.branches = [.literal (.text "hi"), .text] := by cbv
  have there : Ty.salutations.branches = [.text, .literal (.text "hi"), .literal (.text "hi")] := by
    cbv
  have uniform : Ty.salutation.Uniform .text := by
    refine Ty.uniform_iff.mpr ⟨?_, .text "hi", ?_⟩
    · rw [here]
      exact List.cons_ne_nil _ _
    · rw [here, List.forall_mem_cons, List.forall_mem_singleton]
      exact ⟨.value rfl (BEq.refl _), .whole⟩
  have same : Ty.salutation.SameBranches .salutations := by
    apply Ty.SameBranches.of_mem
    intro branch
    simp only [here, there, List.mem_cons, List.not_mem_nil, or_false]
    tauto
  have two : Ty.two.Uniform .number := by
    have carrier : Ty.two.carrier = .resolved .number := rfl
    obtain ⟨payload, offers⟩ := Ty.exists_offers carrier
    exact Ty.uniform_iff.mpr ⟨List.cons_ne_nil _ _, payload, List.forall_mem_singleton.mpr offers⟩
  have mixed : ∀ shape, ¬ Ty.numberOrText.Uniform shape := by
    intro shape uniform
    have number := uniform.shapes .number List.mem_cons_self
    have text := uniform.shapes .text (List.mem_cons_of_mem _ List.mem_cons_self)
    rcases number with number | ⟨_, literal, -⟩
    · cases number
      rcases text with text | ⟨_, literal, -⟩
      · cases text
      · cases literal
    · cases literal
  have shown := (chunks .salutation).2.1.mpr uniform
  refine ⟨cut, uniform, same, shown, (written _ _ _ same).mp shown, ?_, ?_⟩
  · exact (binaries .multiply .salutations .two .text).mpr
      ⟨.text, .number, uniform.of_sameBranches rfl same, two, rfl⟩
  · exact (chunks .numberOrText).2.2 (mixed _) (mixed _)

end StructuralTypes
