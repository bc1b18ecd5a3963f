import StructuralTypes.Proofs.Calls

/-!
Reading parts out of a type and out of its flattening, the one union of all its branches. A
reading goes down the unions that a type is built of and fails at one without branches, which is
lost in the flattening. Where there is none, the two give parts with the same branches, so they are
called and read alike; where there is one, nothing is read and nothing called, whatever the
flattening gives.
-/

namespace StructuralTypes

namespace Ty

def flattened (a : Ty) : Ty := .union a.branches

/-- Two readings that both fail, or that give parts with the same branches. -/
inductive SameReading : Option Ty → Option Ty → Prop where
  | missing : SameReading none none
  | found {x y : Ty} (branches : x.branches = y.branches) : SameReading (some x) (some y)

variable {a : Ty}

theorem branches_flattened (a : Ty) : a.flattened.branches = a.branches := by
  simp only [flattened, branches]
  exact branchesOf_of_singles fun branch => isUnion_of_mem_branches

/-- Of all its unions the flattening keeps only the outermost, so it has an empty one only if no
branch is left. -/
theorem hollow_flattened (full : a.hollow = false) : a.flattened.hollow = false := by
  have singles : ∀ branch ∈ a.branches, branch.hollow = false :=
    fun branch inside => hollow_of_single (isUnion_of_mem_branches inside)
  rw [flattened, hollow, anyHollow_of_full singles, Bool.or_false, List.isEmpty_eq_false_iff]
  exact branches_ne_nil_of_full full

theorem project_of_hollow (read : Ty → Option Ty) (empty : a.hollow = true) :
    a.project read = none := by
  cases found : a.project read with
  | none => rfl
  | some part =>
      rw [(project_iff.mp found).1] at empty
      cases empty

theorem project_flattened (read : Ty → Option Ty) (full : a.hollow = false) :
    SameReading (a.project read) (a.flattened.project read) := by
  have whole := hollow_flattened full
  have branches := branches_flattened a
  by_cases readable : ∀ leaf ∈ a.branches, (read leaf).isSome = true
  · rw [project_iff.mpr ⟨full, readable, rfl⟩, project_iff.mpr ⟨whole, branches ▸ readable, rfl⟩]
    apply SameReading.found
    rw [branches_replaced, branches_replaced, branches]
  · have neither : ∀ {b : Ty}, b.branches = a.branches → b.project read = none := by
      intro b same
      cases found : b.project read with
      | none => rfl
      | some part => exact absurd (same ▸ (project_iff.mp found).2.1) readable
    rw [neither rfl, neither branches]
    exact .missing

theorem arity_of_hollow (empty : a.hollow = true) : a.arity = none := by
  cases found : a.arity with
  | none => rfl
  | some count =>
      rw [(arity_iff.mp found).1] at empty
      cases empty

theorem callable_flattened (full : a.hollow = false) {count : Nat} :
    a.flattened.Callable count ↔ a.Callable count := by
  constructor
  · rintro ⟨-, functions⟩
    exact ⟨full, branches_flattened a ▸ functions⟩
  · rintro ⟨-, functions⟩
    exact ⟨hollow_flattened full, (branches_flattened a).symm ▸ functions⟩

theorem arity_flattened (full : a.hollow = false) : a.arity = a.flattened.arity := by
  apply Option.ext
  intro count
  rw [arity_eq_some_iff, arity_eq_some_iff, callable_flattened full]

theorem takes_flattened (index : Nat) (argument : Ty) :
    a.flattened.Takes index argument ↔ a.Takes index argument := by
  rw [Takes, Takes, branches_flattened]

end Ty

namespace Context

variable [PairKey]

def callOutcome (context : Context) (callee : Ty) (args : List Ty) : Except BindError Ty :=
  ((Check.call Query.queries callee args).run.run context).1

def memberOutcome (context : Context) (object : Ty) (key : String) : Except BindError Ty :=
  ((Check.member object key : ExceptT BindError Query Ty).run.run context).1

theorem memberOutcome_eq (context : Context) (object : Ty) (key : String) :
    context.memberOutcome object key =
      match object.member key with
      | none => .error (.noMember object key)
      | some part => .ok part := by
  unfold memberOutcome Check.member
  cases object.member key <;> rfl

theorem toOption_memberOutcome (context : Context) (object : Ty) (key : String) :
    (context.memberOutcome object key).toOption = object.member key := by
  rw [memberOutcome_eq]
  cases object.member key <;> rfl

end Context

theorem CallOutcome.toOption_eq_none {callee : Ty} {args : List Ty} {outcome : Except BindError Ty}
    (refused : ¬ (callee.Callable args.length ∧
      ∀ i argument, args[i]? = some argument → callee.Takes i argument))
    (comes : CallOutcome callee args outcome) : outcome.toOption = none := by
  cases comes with
  | ok callable taken => exact absurd ⟨callable, taken⟩ refused
  | notCallable | arityMismatch | argumentMismatch => rfl

namespace Check

open Ty

variable {a : Ty}

theorem call_flattened (full : a.hollow = false) (args : List Ty) :
    SameReading (call Reference.queries a args).run.run.toOption
      (call Reference.queries a.flattened args).run.run.toOption := by
  have outcome := call_outcome a args
  have other := call_outcome a.flattened args
  by_cases passes : a.Callable args.length ∧
      ∀ i argument, args[i]? = some argument → a.Takes i argument
  · have whole := (callable_flattened full).mpr passes.1
    have taken := fun i argument given =>
      (takes_flattened i argument).mpr (passes.2 i argument given)
    rw [outcome.unique (.ok passes.1 passes.2), other.unique (.ok whole taken)]
    apply SameReading.found
    rw [branches_replaced, branches_replaced, branches_flattened]
  · rw [outcome.toOption_eq_none passes, other.toOption_eq_none]
    · exact .missing
    · simpa only [callable_flattened full, takes_flattened] using passes

end Check

/-- A type without empty unions in it is seen by every reading as its flattening is: arity, members,
parameters and result are found for both or for neither, with the same branches, and so a call and a
member read pass on both or on neither, where no cutoff falls. An empty union in it is seen too:
nothing is read out of such a type, no call and no read of it passes. -/
theorem projections_see_flattening [PairKey] (a : Ty) :
    (a.hollow = false →
      a.arity = a.flattened.arity ∧
      (∀ key, Ty.SameReading (a.member key) (a.flattened.member key)) ∧
      Ty.SameReading a.result a.flattened.result ∧
      (∀ index, Ty.SameReading (a.parameter index) (a.flattened.parameter index)) ∧
      (∀ first second : Context, ∀ key, Ty.SameReading (first.memberOutcome a key).toOption
        (second.memberOutcome a.flattened key).toOption) ∧
      ∀ first second : Context, first.Reached → second.Reached → ∀ args, first.SettlesCall a args →
        second.SettlesCall a.flattened args → Ty.SameReading (first.callOutcome a args).toOption
          (second.callOutcome a.flattened args).toOption) ∧
    (a.hollow = true →
      a.arity = none ∧ (∀ key, a.member key = none) ∧ a.result = none ∧
      (∀ index, a.parameter index = none) ∧
      ∀ context : Context, (∀ key, context.memberOutcome a key = .error (.noMember a key)) ∧
        ∀ args, context.callOutcome a args = .error (.notCallable a)) := by
  constructor
  · intro full
    have member : ∀ key, Ty.SameReading (a.member key) (a.flattened.member key) :=
      fun key => Ty.project_flattened _ full
    refine ⟨Ty.arity_flattened full, member, Ty.project_flattened _ full,
      fun index => Ty.project_flattened _ full, fun first second key => ?_, ?_⟩
    · rw [Context.toOption_memberOutcome, Context.toOption_memberOutcome]
      exact member key
    · intro first second reached reachedSecond args settles settlesSecond
      rw [Context.callOutcome, Context.callOutcome, reached.call_plain settles,
        reachedSecond.call_plain settlesSecond]
      exact Check.call_flattened full args
  · intro empty
    have arity := Ty.arity_of_hollow empty
    have member : ∀ key, a.member key = none := fun key => Ty.project_of_hollow _ empty
    refine ⟨arity, member, Ty.project_of_hollow _ empty,
      fun index => Ty.project_of_hollow _ empty, fun context => ⟨fun key => ?_, fun args => ?_⟩⟩
    · rw [Context.memberOutcome_eq, member key]
    · rw [Context.callOutcome, Check.call, arity]
      rfl

namespace Ty

def counter : Ty := .function [⟨"start", .number, none⟩] .number

def describer : Ty := .function [⟨"start", .numberOrText, none⟩] .text

def makers : Ty := .union [.union [counter], .union [.union [describer], counter]]

end Ty

section

open Ty

theorem projections_see_flattening_makers :
    makers.hollow = false ∧ makers.flattened = .union [counter, describer, counter] ∧
    makers.flattened.arity = some 1 ∧ makers.arity = some 1 ∧
    SameReading (some (.union [.union [.number], .union [.union [.text], .number]]))
      makers.flattened.result ∧
    (Context.new ⟨true, 4, 1⟩).SettlesCall makers [.two] ∧
    (Context.new ⟨false, 4, 0⟩).SettlesCall makers.flattened [.two] ∧
    SameReading ((Context.new ⟨true, 4, 1⟩).callOutcome makers [.two]).toOption
      ((Context.new ⟨false, 4, 0⟩).callOutcome makers.flattened [.two]).toOption := by
  have full : makers.hollow = false := by cbv
  have settles : (Context.new ⟨true, 4, 1⟩).SettlesCall makers [.two] := by cbv
  have settlesFlat : (Context.new ⟨false, 4, 0⟩).SettlesCall makers.flattened [.two] := by cbv
  obtain ⟨arity, -, result, -, -, call⟩ := (projections_see_flattening makers).1 full
  have found : makers.arity = some 1 := by cbv
  have read : makers.result =
      some (.union [.union [.number], .union [.union [.text], .number]]) := by cbv
  exact ⟨full, by cbv, arity ▸ found, found, read ▸ result, settles, settlesFlat,
    call _ _ (Context.reached_new _) (Context.reached_new _) _ settles settlesFlat⟩

/-- An empty union beside a function is lost in the flattening, and only then is there something to
call. And where a cutoff falls, an argument may be refused for the union it is compared with. -/
theorem flattening_hides_empty_union :
    let hollow : Ty := .union [.union [], counter]
    hollow.flattened = .union [counter] ∧
    hollow.arity = none ∧ hollow.flattened.arity = some 1 ∧
    hollow.result = none ∧ hollow.flattened.result = some (.union [.number]) ∧
    hollow.parameter 0 = none ∧ hollow.flattened.parameter 0 = some (.union [.number]) ∧
    ((Context.new {}).callOutcome hollow [.number]).toOption = none ∧
    ((Context.new {}).callOutcome hollow.flattened [.number]).toOption = some (.union [.number]) ∧
    ((Context.new ⟨true, 1, 1⟩).callOutcome counter [.number]).toOption = some .number ∧
    ((Context.new ⟨true, 1, 1⟩).callOutcome counter.flattened [.number]).toOption = none := by
  refine ⟨?_, ?_, ?_, ?_, ?_, ?_, ?_, ?_, ?_, ?_, ?_⟩ <;> cbv

end

end StructuralTypes
