import StructuralTypes.Proofs.Distribution
import StructuralTypes.Proofs.Projection
import StructuralTypes.Proofs.Soundness

/-!
What the check of a call comes to. `CallOutcome` says it in terms of the functions that the
callee may be: whether there is a call at all, how many arguments it takes, which argument is the
first that none of them takes, and the type of the result. Arity, parameters and result are read
by recursions of their own, but where the arity is known the others are found, so no check fails
for want of them. A check asks a context the same questions as it asks the plain rules and goes on
by the answers only, so without a cutoff it comes to the same.
-/

namespace StructuralTypes

namespace Ty

def resultOf : Ty → Option Ty
  | .resolved (.function _ result) => some result
  | _ => none

def parameterOf (index : Nat) : Ty → Option Ty
  | .resolved (.function parameters _) => parameters[index]?.map (·.ty)
  | _ => none

/-- Every branch is a function of `count` parameters, and there is no empty place for one. -/
structure Callable (callee : Ty) (count : Nat) : Prop where
  full : callee.hollow = false
  functions : ∀ leaf ∈ callee.branches, IsFunction count leaf

/-- A union without branches, a branch that is no function, or functions that disagree in the
number of parameters. -/
def Uncallable (callee : Ty) : Prop :=
  callee.hollow = true ∨ (∃ leaf ∈ callee.branches, leaf.kind ≠ .function) ∨
    ∃ ps result rs other, .resolved (.function ps result) ∈ callee.branches ∧
      .resolved (.function rs other) ∈ callee.branches ∧ ps.length ≠ rs.length

def Takes (callee : Ty) (index : Nat) (argument : Ty) : Prop :=
  ∃ ps result p, .resolved (.function ps result) ∈ callee.branches ∧ ps[index]? = some p ∧
    Reference.typesMatch argument p.ty = true

variable {callee argument : Ty} {count index : Nat}

theorem arity_eq_some_iff : callee.arity = some count ↔ callee.Callable count := by
  rw [arity_iff]
  exact ⟨fun both => ⟨both.1, both.2⟩, fun callable => ⟨callable.full, callable.functions⟩⟩

theorem Callable.unique (callable : callee.Callable count) {other : Nat}
    (also : callee.Callable other) : count = other := by
  rw [← arity_eq_some_iff] at callable also
  exact Option.some.inj (callable.symm.trans also)

theorem function_of_kind {leaf : Ty} (kind : leaf.kind = .function) :
    ∃ ps result, leaf = .resolved (.function ps result) := by
  cases leaf with
  | literal value => cases kind
  | union parts => cases kind
  | resolved shape =>
      cases shape with
      | function ps result => exact ⟨ps, result, rfl⟩
      | _ => cases kind

theorem Callable.not_uncallable (callable : callee.Callable count) : ¬ callee.Uncallable := by
  rintro (hollow | ⟨leaf, member, other⟩ | ⟨ps, a, rs, b, first, second, different⟩)
  · rw [callable.full] at hollow
    cases hollow
  · obtain ⟨ps, result, rfl, -⟩ := callable.functions leaf member
    exact other rfl
  · obtain ⟨_, _, same, count⟩ := callable.functions _ first
    obtain ⟨_, _, other, countOther⟩ := callable.functions _ second
    cases same
    cases other
    exact different (count.trans countOther.symm)

theorem uncallable_of_arity (none : callee.arity = none) : callee.Uncallable := by
  by_contra sound
  simp only [Uncallable, not_or, not_exists, not_and, Bool.not_eq_true, Decidable.not_not] at sound
  obtain ⟨full, functions, agree⟩ := sound
  obtain ⟨first, member⟩ := List.exists_mem_of_ne_nil _ (branches_ne_nil_of_full full)
  obtain ⟨ps, result, rfl⟩ := function_of_kind (functions first member)
  -- the first function sets the number for all
  have callable : callee.Callable ps.length := by
    refine ⟨full, fun leaf there => ?_⟩
    obtain ⟨rs, other, rfl⟩ := function_of_kind (functions leaf there)
    exact ⟨rs, other, rfl, (agree ps result rs other member there).symm⟩
  rw [arity_eq_some_iff.mpr callable] at none
  cases none

theorem Callable.result (callable : callee.Callable count) :
    callee.result = some (callee.replaced resultOf) := by
  refine project_iff.mpr ⟨callable.full, fun leaf member => ?_, rfl⟩
  obtain ⟨ps, result, rfl, -⟩ := callable.functions leaf member
  rfl

theorem Callable.parameter (callable : callee.Callable count) (inside : index < count) :
    callee.parameter index = some (callee.replaced (parameterOf index)) := by
  refine project_iff.mpr ⟨callable.full, fun leaf member => ?_, rfl⟩
  obtain ⟨ps, result, rfl, rfl⟩ := callable.functions leaf member
  simp [inside]

/-- The parameters of all functions at one place form a union that is matched as its branches
are, so an argument matches it if one of the functions takes the argument. -/
theorem Callable.takes_iff (callable : callee.Callable count) (inside : index < count) :
    Reference.typesMatch argument (callee.replaced (parameterOf index)) = true ↔
      callee.Takes index argument := by
  rw [Reference.typesMatch_iff, branches_replaced]
  constructor
  · rintro ⟨branch, here, other, there, holds⟩
    obtain ⟨leaf, member, part⟩ := List.mem_flatMap.mp there
    obtain ⟨ps, result, rfl, rfl⟩ := callable.functions leaf member
    have found : ps[index]? = some ps[index] := List.getElem?_eq_getElem inside
    simp only [parameterOf, found, Option.map_some, Option.getD_some] at part
    refine ⟨ps, result, ps[index], member, found, ?_⟩
    exact (Reference.typesMatch_iff _ _).mpr ⟨branch, here, other, part, holds⟩
  · rintro ⟨ps, result, p, member, found, holds⟩
    obtain ⟨branch, here, other, there, holds⟩ := (Reference.typesMatch_iff _ _).mp holds
    refine ⟨branch, here, other, List.mem_flatMap.mpr ⟨_, member, ?_⟩, holds⟩
    simp only [parameterOf, found, Option.map_some, Option.getD_some]
    exact there

end Ty

/-- What the check of a call comes to, and under which conditions. -/
inductive CallOutcome (callee : Ty) (args : List Ty) : Except BindError Ty → Prop where
  | notCallable (defect : callee.Uncallable) :
      CallOutcome callee args (.error (.notCallable callee))
  | arityMismatch {count : Nat} (callable : callee.Callable count)
      (different : count ≠ args.length) :
      CallOutcome callee args (.error (.arityMismatch count args.length))
  | argumentMismatch {index : Nat} {argument : Ty} (callable : callee.Callable args.length)
      (here : args[index]? = some argument) (refused : ¬ callee.Takes index argument)
      (earlier : ∀ i < index, ∀ other, args[i]? = some other → callee.Takes i other) :
      CallOutcome callee args
        (.error (.argumentMismatch index (callee.replaced (Ty.parameterOf index)) argument))
  | ok (callable : callee.Callable args.length)
      (taken : ∀ i argument, args[i]? = some argument → callee.Takes i argument) :
      CallOutcome callee args (.ok (callee.replaced Ty.resultOf))

namespace CallOutcome

variable {callee : Ty} {args : List Ty} {x y : Except BindError Ty}

theorem unique (first : CallOutcome callee args x) (second : CallOutcome callee args y) :
    x = y := by
  cases first with
  | notCallable defect =>
      cases second with
      | notCallable _ => rfl
      | arityMismatch callable _ => exact absurd defect callable.not_uncallable
      | argumentMismatch callable _ _ _ => exact absurd defect callable.not_uncallable
      | ok callable _ => exact absurd defect callable.not_uncallable
  | arityMismatch callable different =>
      cases second with
      | notCallable defect => exact absurd defect callable.not_uncallable
      | arityMismatch other _ => rw [callable.unique other]
      | argumentMismatch other _ _ _ => exact absurd (callable.unique other) different
      | ok other _ => exact absurd (callable.unique other) different
  | @argumentMismatch index argument callable here refused earlier =>
      cases second with
      | notCallable defect => exact absurd defect callable.not_uncallable
      | arityMismatch other different => exact absurd (other.unique callable) different
      | @argumentMismatch place found _ there refusedThere earlierThere =>
          -- each of the two is the first
          rcases Nat.lt_trichotomy index place with less | same | more
          · exact absurd (earlierThere index less argument here) refused
          · subst same
            cases here.symm.trans there
            rfl
          · exact absurd (earlier place more found there) refusedThere
      | ok _ taken => exact absurd (taken index argument here) refused
  | ok callable taken =>
      cases second with
      | notCallable defect => exact absurd defect callable.not_uncallable
      | arityMismatch other different => exact absurd (other.unique callable) different
      | argumentMismatch _ here refused _ => exact absurd (taken _ _ here) refused
      | ok _ _ => rfl

end CallOutcome

def RefusesArgument (index : Nat) (outcome : Except BindError Ty) : Prop :=
  ∃ expected actual, outcome = .error (.argumentMismatch index expected actual)

def BindError.unresolved : BindError → Bool
  | .unresolvedParameter _ _ => true
  | .unresolvedReturn _ => true
  | _ => false

namespace Check

section Lockstep

noncomputable local instance {α : Type} : DecidableEq (Except BindError α) := Classical.decEq _

variable {m n : Type → Type} [Monad m] [Monad n] {step : Lockstep m n} {q : Queries m}
  {r : Queries n}

theorem throw_lockstep {α : Type} (error : BindError) :
    step.agree (throw error : ExceptT BindError m α).run
      (throw error : ExceptT BindError n α).run :=
  step.refl (Except.error error)

variable [LawfulMonad m] [LawfulMonad n]

theorem arguments_lockstep (agrees : Agree step q r) (callee : Ty) (index : Nat)
    (args : List Ty) :
    step.agree (arguments q callee index args).run (arguments r callee index args).run := by
  induction args generalizing index with
  | nil => exact step.refl (Except.ok ())
  | cons argument rest ih =>
      unfold arguments
      cases callee.parameter index with
      | none => exact throw_lockstep (.unresolvedParameter index callee)
      | some parameter =>
          simp only [ExceptT.run_bind_lift]
          have matched := (agrees _).typesMatch (Precision.refl argument)
            (Precision.refl parameter) (Nat.le_refl _)
          refine step.bindBool matched fun holds => ?_
          cases holds with
          | true => exact ih (index + 1)
          | false => exact throw_lockstep (.argumentMismatch index parameter argument)

theorem call_lockstep (agrees : Agree step q r) (callee : Ty) (args : List Ty) :
    step.agree (call q callee args).run (call r callee args).run := by
  unfold call
  cases callee.arity with
  | none => exact throw_lockstep (.notCallable callee)
  | some count =>
      dsimp only
      by_cases equal : count = args.length
      · rw [if_pos equal, if_pos equal, ExceptT.run_bind, ExceptT.run_bind]
        refine step.bind (arguments_lockstep agrees callee 0 args) fun u v same => ?_
        cases Precision.eq same
        cases u with
        | error error => exact throw_lockstep error
        | ok _ =>
            cases callee.result with
            | none => exact throw_lockstep (.unresolvedReturn callee)
            | some result => exact step.refl (Except.ok result)
      · rw [if_neg equal, if_neg equal]
        exact throw_lockstep (.arityMismatch count args.length)

theorem call_plain [PairKey] {context : Context} (sound : context.cache.Sound) {callee : Ty}
    {args : List Ty}
    (clean : ((call Query.queries callee args).run.run context).2.cutoffs = context.cutoffs) :
    ((call Query.queries callee args).run.run context).1 =
      (call Reference.queries callee args).run.run := by
  have tracks : Query.Tracks (call Query.queries callee args).run
      (call Reference.queries callee args).run := call_lockstep Query.queries_track callee args
  exact eq_of_beq (tracks.answers context sound clean)

end Lockstep

variable {callee : Ty} {count : Nat}

theorem call_of_callable {m : Type → Type} [Monad m] (q : Queries m) {args : List Ty}
    (callable : callee.Callable args.length) : call q callee args = (do
      arguments q callee 0 args
      pure (callee.replaced Ty.resultOf)) := by
  rw [call, Ty.arity_eq_some_iff.mpr callable]
  simp only [if_true, callable.result]

theorem arguments_cons (callable : callee.Callable count) {start : Nat} (inside : start < count)
    (argument : Ty) (rest : List Ty) :
    (arguments Reference.queries callee start (argument :: rest)).run.run =
      if Reference.typesMatch argument (callee.replaced (Ty.parameterOf start)) = true then
        (arguments Reference.queries callee (start + 1) rest).run.run
      else .error (.argumentMismatch start (callee.replaced (Ty.parameterOf start)) argument) := by
  rw [arguments]
  simp only [callable.parameter inside, ExceptT.run_bind_lift]
  change ExceptT.run (if Reference.typesMatch argument _ = true then _ else _ :
    ExceptT BindError Id Unit) = _
  split <;> rfl

theorem arguments_ok (callable : callee.Callable count) (args : List Ty) (start : Nat)
    (inside : start + args.length ≤ count)
    (taken : ∀ i argument, args[i]? = some argument → callee.Takes (start + i) argument) :
    (arguments Reference.queries callee start args).run.run = .ok () := by
  induction args generalizing start with
  | nil => rfl
  | cons argument rest ih =>
      simp only [List.length_cons] at inside
      have first : start < count := by omega
      have head : callee.Takes start argument := taken 0 argument rfl
      rw [arguments_cons callable first, if_pos ((callable.takes_iff first).mpr head)]
      apply ih (start + 1) (by omega)
      intro i other found
      have later := taken (i + 1) other found
      rwa [← Nat.add_assoc, Nat.add_right_comm] at later

theorem arguments_mismatch (callable : callee.Callable count) (args : List Ty) (start : Nat)
    (inside : start + args.length ≤ count) {index : Nat} {argument : Ty}
    (here : args[index]? = some argument) (refused : ¬ callee.Takes (start + index) argument)
    (earlier : ∀ i < index, ∀ other, args[i]? = some other → callee.Takes (start + i) other) :
    (arguments Reference.queries callee start args).run.run = .error (.argumentMismatch
      (start + index) (callee.replaced (Ty.parameterOf (start + index))) argument) := by
  induction args generalizing start index with
  | nil => simp at here
  | cons first rest ih =>
      simp only [List.length_cons] at inside
      have more : start < count := by omega
      have takes : Reference.typesMatch first (callee.replaced (Ty.parameterOf start)) = true ↔
          callee.Takes start first := callable.takes_iff more
      rw [arguments_cons callable more]
      cases index with
      | zero =>
          cases here
          exact if_neg fun holds => refused (takes.mp holds)
      | succ index =>
          have head : callee.Takes start first := earlier 0 (Nat.succ_pos _) first rfl
          rw [if_pos (takes.mpr head)]
          have shift : ∀ i, start + (i + 1) = start + 1 + i := fun i => by omega
          rw [shift index] at refused ⊢
          apply ih (start + 1) (by omega) here refused
          intro i less other found
          rw [← shift]
          exact earlier (i + 1) (Nat.succ_lt_succ less) other found

theorem taken_or_refused (callee : Ty) (args : List Ty) :
    (∀ i argument, args[i]? = some argument → callee.Takes i argument) ∨
    ∃ index argument, args[index]? = some argument ∧ ¬ callee.Takes index argument ∧
      ∀ i < index, ∀ other, args[i]? = some other → callee.Takes i other := by
  classical
  by_cases refusal : ∃ i argument, args[i]? = some argument ∧ ¬ callee.Takes i argument
  · right
    obtain ⟨argument, here, refused⟩ := Nat.find_spec refusal
    refine ⟨Nat.find refusal, argument, here, refused, fun i less other found => ?_⟩
    by_contra refusedThere
    exact Nat.find_min refusal less ⟨other, found, refusedThere⟩
  · left
    intro i argument found
    by_contra refused
    exact refusal ⟨i, argument, found, refused⟩

theorem call_outcome (callee : Ty) (args : List Ty) :
    CallOutcome callee args (call Reference.queries callee args).run.run := by
  cases arity : callee.arity with
  | none =>
      rw [call, arity]
      exact .notCallable (Ty.uncallable_of_arity arity)
  | some count =>
      have callable := Ty.arity_eq_some_iff.mp arity
      by_cases equal : count = args.length
      · subst equal
        rw [call_of_callable _ callable, ExceptT.run_bind]
        rcases taken_or_refused callee args with taken | ⟨index, argument, here, refused, earlier⟩
        · have passes : (arguments Reference.queries callee 0 args).run = Except.ok () :=
            arguments_ok callable args 0 (by omega) (by simpa using taken)
          rw [passes]
          exact .ok callable taken
        · have fails : (arguments Reference.queries callee 0 args).run = Except.error _ :=
            arguments_mismatch callable args 0 (by omega) here (by simpa using refused)
              (by simpa using earlier)
          rw [fails, Nat.zero_add]
          exact .argumentMismatch callable here refused earlier
      · rw [call, arity]
        simp only [if_neg equal]
        exact .arityMismatch callable equal

theorem call_accepts_matched {args : List Ty} {index : Nat} {argument parameter : Ty}
    (given : args[index]? = some argument) (found : callee.parameter index = some parameter)
    (holds : Reference.typesMatch argument parameter = true) :
    ¬ RefusesArgument index (call Reference.queries callee args).run.run := by
  rintro ⟨expected, actual, fails⟩
  have outcome := call_outcome callee args
  rw [fails] at outcome
  cases outcome with
  | argumentMismatch callable here refused _ =>
      have inside := (List.getElem?_eq_some_iff.mp here).1
      cases (callable.parameter inside).symm.trans found
      cases given.symm.trans here
      exact refused ((callable.takes_iff inside).mp holds)

theorem arguments_resolved [PairKey] (callable : callee.Callable count) (args : List Ty)
    (start : Nat) (inside : start + args.length ≤ count) (context : Context) {error : BindError}
    (fails : ((arguments Query.queries callee start args).run.run context).1 = .error error) :
    error.unresolved = false := by
  induction args generalizing start context with
  | nil => cases fails
  | cons argument rest ih =>
      simp only [List.length_cons] at inside
      have first : start < count := by omega
      simp only [arguments, callable.parameter first, ExceptT.run_bind_lift,
        Query.bind_run] at fails
      split at fails
      · exact ih (start + 1) (by omega) _ fails
      · cases fails
        rfl

theorem call_resolved [PairKey] (callee : Ty) (args : List Ty) (context : Context)
    {error : BindError} (fails : ((call Query.queries callee args).run.run context).1 = .error error) :
    error.unresolved = false := by
  cases arity : callee.arity with
  | none =>
      rw [call, arity] at fails
      cases fails
      rfl
  | some count =>
      by_cases equal : count = args.length
      · subst equal
        have callable := Ty.arity_eq_some_iff.mp arity
        rw [call_of_callable _ callable, Query.check_run] at fails
        split at fails
        · cases fails
        · next refused =>
            cases fails
            exact arguments_resolved callable args 0 (by omega) context refused
      · simp only [call, arity, if_neg equal] at fails
        cases fails
        rfl

end Check

def Context.SettlesCall [PairKey] (context : Context) (callee : Ty) (args : List Ty) : Prop :=
  ((Check.call Query.queries callee args).run.run context).2.cutoffs = context.cutoffs

theorem Context.Reached.call_plain [PairKey] {context : Context} (reached : context.Reached)
    {callee : Ty} {args : List Ty} (settles : context.SettlesCall callee args) :
    ((Check.call Query.queries callee args).run.run context).1 =
      (Check.call Reference.queries callee args).run.run := by
  obtain ⟨config, requests, rfl⟩ := reached
  exact Check.call_plain (Request.reached_sound config requests) settles

/-- A call is checked, plainly or on any context without a cutoff, as the functions that the
callee may be say. A part of the callee is never found missing, not even after a cutoff. -/
theorem call_outcome_complete [PairKey] (callee : Ty) (args : List Ty)
    (outcome : Except BindError Ty) :
    ((Check.call Reference.queries callee args).run.run = outcome ↔
      CallOutcome callee args outcome) ∧
    ∀ context : Context,
      (context.Reached → context.SettlesCall callee args →
        (((Check.call Query.queries callee args).run.run context).1 = outcome ↔
          CallOutcome callee args outcome)) ∧
      ∀ index ty,
        ((Check.call Query.queries callee args).run.run context).1 ≠
          .error (.unresolvedParameter index ty) ∧
        ((Check.call Query.queries callee args).run.run context).1 ≠
          .error (.unresolvedReturn ty) := by
  have plain : (Check.call Reference.queries callee args).run.run = outcome ↔
      CallOutcome callee args outcome := by
    have actual := Check.call_outcome callee args
    constructor
    · rintro rfl
      exact actual
    · exact actual.unique
  refine ⟨plain, fun context => ⟨fun reached settles => ?_, fun index ty => ⟨?_, ?_⟩⟩⟩
  · rw [reached.call_plain settles]
    exact plain
  · intro fails
    cases Check.call_resolved callee args context fails
  · intro fails
    cases Check.call_resolved callee args context fails

def Ty.handlers : Ty :=
  .union [.function [⟨"key", .number, none⟩, ⟨"value", .text, none⟩] .number,
    .union [.function [⟨"key", .text, none⟩, ⟨"value", .number, none⟩] .text]]

/-- Two numbers pass although no function takes both, as each is taken by one. -/
theorem call_outcome_complete_handlers :
    let context := Context.new ⟨true, 4, 1⟩
    let hollow := Ty.union [.handlers, .union []]
    context.SettlesCall .handlers [.number, .number] ∧
    CallOutcome .handlers [.number, .number] (.ok (.union [.number, .union [.text]])) ∧
    context.SettlesCall .handlers [.text, .logic] ∧
    CallOutcome .handlers [.text, .logic]
      (.error (.argumentMismatch 1 (.union [.text, .union [.number]]) .logic)) ∧
    context.SettlesCall .handlers [.text] ∧
    CallOutcome .handlers [.text] (.error (.arityMismatch 2 1)) ∧
    context.SettlesCall hollow [.text, .number] ∧
    CallOutcome hollow [.text, .number] (.error (.notCallable hollow)) := by
  intro context hollow
  have reached := Context.reached_new ⟨true, 4, 1⟩
  have outcome : ∀ callee args result, context.SettlesCall callee args →
      ((Check.call Query.queries callee args).run.run context).1 = result →
      context.SettlesCall callee args ∧ CallOutcome callee args result := by
    intro callee args result settles checked
    exact ⟨settles,
      (((call_outcome_complete callee args result).2 context).1 reached settles).mp checked⟩
  obtain ⟨settlesNumbers, numbers⟩ := outcome .handlers [.number, .number]
    (.ok (.union [.number, .union [.text]])) (by cbv) (by cbv)
  obtain ⟨settlesLogic, logic⟩ := outcome .handlers [.text, .logic]
    (.error (.argumentMismatch 1 (.union [.text, .union [.number]]) .logic)) (by cbv) (by cbv)
  obtain ⟨settlesText, text⟩ := outcome .handlers [.text] (.error (.arityMismatch 2 1)) (by cbv)
    (by cbv)
  obtain ⟨settlesHollow, empty⟩ := outcome hollow [.text, .number]
    (.error (.notCallable hollow)) (by cbv) (by cbv)
  exact ⟨settlesNumbers, numbers, settlesLogic, logic, settlesText, text, settlesHollow, empty⟩

end StructuralTypes
