import StructuralTypes.Binding.Session
import StructuralTypes.Proofs.Levels
import StructuralTypes.Proofs.Preorder

/-!
Contexts in use. A check asks its context questions and does nothing else to it, whether it passes
or fails, and so does an evaluation; what a mixture of checks, evaluations and direct requests
leaves behind is therefore what some requests alone would have left. All that is known of contexts
after requests is then known of every context that a checker can have.
-/

namespace StructuralTypes

variable [PairKey]

namespace Query

variable {α β : Type}

/-- All that is done to a context could have been requested of it. -/
def Asks (work : Query α) : Prop :=
  ∀ context : Context, ∃ requests, (work.run context).2 = Request.history requests context

namespace Asks

theorem pure (x : α) : Asks (pure x : Query α) := fun _ => ⟨[], rfl⟩

theorem bind {work : Query α} {f : α → Query β} (first : Asks work) (rest : ∀ u, Asks (f u)) :
    Asks (work >>= f) := by
  intro context
  obtain ⟨before, reached⟩ := first context
  obtain ⟨after, left⟩ := rest (work.run context).1 (work.run context).2
  refine ⟨before ++ after, ?_⟩
  rw [bind_run, left, reached]
  exact List.foldl_append.symm

theorem typesMatch (a b : Ty) : Asks (Query.typesMatch a b) :=
  fun _ => ⟨[.ask (.typesMatch a b)], rfl⟩

theorem meet (a b : Ty) : Asks (Query.meet a b) :=
  fun _ => ⟨[.ask (.meet a b)], rfl⟩

theorem reduce (ty : Ty) : Asks (Query.reduce ty) :=
  fun _ => ⟨[.ask (.reduce ty)], rfl⟩

theorem bindLift {work : Query α} {f : α → ExceptT BindError Query β} (first : Asks work)
    (rest : ∀ u, Asks (f u).run) : Asks (ExceptT.lift work >>= f).run := by
  rw [ExceptT.run_bind_lift]
  exact first.bind rest

theorem bindCheck {work : ExceptT BindError Query α} {f : α → ExceptT BindError Query β}
    (first : Asks work.run) (rest : ∀ u, Asks (f u).run) : Asks (work >>= f).run := by
  rw [ExceptT.run_bind]
  refine first.bind fun outcome => ?_
  cases outcome with
  | error error => exact .pure _
  | ok u => exact rest u

end Asks

end Query

namespace Check

open Query (Asks)

theorem arguments_asks (callee : Ty) (index : Nat) (args : List Ty) :
    Asks (arguments Query.queries callee index args).run := by
  induction args generalizing index with
  | nil => exact .pure _
  | cons argument rest ih =>
      simp only [arguments]
      cases callee.parameter index with
      | none => exact .pure _
      | some parameter =>
          refine (Asks.typesMatch argument parameter).bindLift fun holds => ?_
          cases holds with
          | true => exact ih (index + 1)
          | false => exact .pure _

theorem call_asks (callee : Ty) (args : List Ty) : Asks (call Query.queries callee args).run := by
  unfold call
  cases callee.arity with
  | none => exact .pure _
  | some count =>
      dsimp only
      by_cases equal : count = args.length
      · rw [if_pos equal]
        refine (arguments_asks callee 0 args).bindCheck fun _ => ?_
        cases callee.result <;> exact .pure _
      · rw [if_neg equal]
        exact .pure _

theorem operand_asks (ty : Ty) : Asks (operand Query.queries ty).run := by
  refine (Asks.reduce ty).bindLift fun found => ?_
  cases found <;> exact .pure _

theorem binary_asks (operator : Operator) (left right : Ty) :
    Asks (binary Query.queries operator left right).run := by
  refine (operand_asks left).bindCheck fun l => (operand_asks right).bindCheck fun r => ?_
  cases operator.resultType l r <;> exact .pure _

theorem chunk_asks (ty : Ty) : Asks (chunk Query.queries ty).run := by
  refine (Asks.reduce ty).bindLift fun found => ?_
  split <;> exact .pure _

theorem member_asks (object : Ty) (key : String) :
    Asks (member object key : ExceptT BindError Query Ty).run := by
  unfold member
  split <;> exact .pure _

end Check

namespace Eval

open Query (Asks)

theorem binary_asks (operator : Operator) (left right : Binding) :
    Asks (binary Query.queries operator left right).run := by
  refine (Check.binary_asks operator left.ty right.ty).bindCheck fun _ => ?_
  cases operator.apply left right <;> exact .pure _

theorem call_asks (callee : Binding) (args : List Binding) (host : Host) :
    Asks (call Query.queries callee args host).run := by
  refine (Check.call_asks callee.ty (args.map (·.ty))).bindCheck fun _ => ?_
  cases host args <;> exact .pure _

theorem member_asks (object : Binding) (key : String) :
    Asks (member object key : ExceptT BindError Query Binding).run := by
  refine (Check.member_asks object.ty key).bindCheck fun _ => ?_
  split
  · split <;> exact .pure _
  · exact .pure _

theorem chunks_asks (parts : List Binding) : Asks (chunks Query.queries parts).run := by
  induction parts with
  | nil => exact .pure _
  | cons part rest ih =>
      refine (Check.chunk_asks part.ty).bindCheck fun _ => ?_
      split
      · exact .pure _
      · exact ih.bindCheck fun _ => .pure _

theorem template_asks (parts : List Binding) : Asks (template Query.queries parts).run :=
  (chunks_asks parts).bindCheck fun _ => .pure _

end Eval

/-- What a checker is used for: requests to its context, checks of types, and actions of an
evaluation in a scope. -/
inductive Use where
  | request (asked : Request)
  | call (callee : Ty) (args : List Ty)
  | member (object : Ty) (key : String)
  | binary (operator : Operator) (left right : Ty)
  | chunk (ty : Ty)
  | act (scope : Scope) (action : Action)

namespace Use

def after (context : Context) : Use → Context
  | .request asked => (asked.perform.run context).2
  | .call callee args => ((Check.call Query.queries callee args).run.run context).2
  | .member object key =>
      ((Check.member object key : ExceptT BindError Query Ty).run.run context).2
  | .binary operator left right =>
      ((Check.binary Query.queries operator left right).run.run context).2
  | .chunk ty => ((Check.chunk Query.queries ty).run.run context).2
  | .act scope action => (Session.perform action ⟨scope, context⟩).2.context

def history (uses : List Use) (start : Context) : Context := uses.foldl after start

theorem after_perform (scope : Scope) (action : Action) (context : Context) :
    ∃ requests, after context (.act scope action) = Request.history requests context := by
  cases action with
  | define name binding =>
      refine ⟨[], ?_⟩
      simp only [after, Session.perform, Session.define]
      cases scope.define name binding <;> rfl
  | lookup name => exact ⟨[], rfl⟩
  | binary operator left right => exact Eval.binary_asks operator left right context
  | member object key => exact Eval.member_asks object key context
  | template parts => exact Eval.template_asks parts context
  | call callee args host => exact Eval.call_asks callee args host context

theorem after_requests (use : Use) (context : Context) :
    ∃ requests, after context use = Request.history requests context := by
  cases use with
  | request asked => exact ⟨[asked], rfl⟩
  | call callee args => exact Check.call_asks callee args context
  | member object key => exact Check.member_asks object key context
  | binary operator left right => exact Check.binary_asks operator left right context
  | chunk ty => exact Check.chunk_asks ty context
  | act scope action => exact after_perform scope action context

theorem history_requests (uses : List Use) (start : Context) :
    ∃ requests, history uses start = Request.history requests start := by
  induction uses generalizing start with
  | nil => exact ⟨[], rfl⟩
  | cons use rest ih =>
      obtain ⟨first, step⟩ := after_requests use start
      obtain ⟨others, run⟩ := ih (after start use)
      refine ⟨first ++ others, ?_⟩
      change history rest (after start use) = _
      rw [run, step]
      exact List.foldl_append.symm

end Use

namespace Context

theorem reached_used (uses : List Use) (config : Config) :
    (Use.history uses (Context.new config)).Reached := by
  obtain ⟨requests, same⟩ := Use.history_requests uses (Context.new config)
  exact ⟨config, requests, same⟩

theorem config_used (uses : List Use) (config : Config) :
    (Use.history uses (Context.new config)).config = config := by
  obtain ⟨requests, same⟩ := Use.history_requests uses (Context.new config)
  rw [same, Request.history_config]
  rfl

variable {α : Type} {context : Context} {work : Query α}

theorem Reached.after (reached : context.Reached) (asks : Query.Asks work) :
    (work.run context).2.Reached := by
  obtain ⟨config, before, rfl⟩ := reached
  obtain ⟨requests, left⟩ := asks (Request.history before (Context.new config))
  refine ⟨config, before ++ requests, left.trans ?_⟩
  exact List.foldl_append.symm

theorem config_after (asks : Query.Asks work) (context : Context) :
    (work.run context).2.config = context.config := by
  obtain ⟨requests, left⟩ := asks context
  rw [left, Request.history_config]

theorem Reached.depth (reached : context.Reached) : context.depth = 0 := by
  obtain ⟨config, requests, rfl⟩ := reached
  exact Request.history_depth requests _

end Context

end StructuralTypes
