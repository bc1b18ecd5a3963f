import StructuralTypes.Binding.Session
import StructuralTypes.Proofs.Inhabits

/-!
Bindings made by a session are inhabited. Checks look at types only and operations at
payloads only; what joins them is that an operand which counts as a primitive has a payload of
that kind, and that a member of a type is there in its payloads. A session keeps two things
from action to action: its scope binds inhabited payloads, and its context is cautious. Of a host
it is assumed that it keeps to the type its call was checked for, or fails without blaming a
payload.
-/

namespace StructuralTypes

/-- The payload is one that the type describes. -/
def Binding.Inhabited (binding : Binding) : Prop := binding.ty.admits binding.payload = true

def Scope.Inhabited (scope : Scope) : Prop :=
  ∀ name binding, scope.lookup name = .ok binding → binding.Inhabited

def BindError.blamesPayload : BindError → Bool
  | .invalidPayload _ => true
  | _ => false

/-- If this is a failure, it blames no payload. -/
def Excusable {α : Type} : Except BindError α → Prop
  | .ok _ => True
  | .error error => error.blamesPayload = false

def Legitimate : Except BindError Binding → Prop
  | .ok binding => binding.Inhabited
  | .error error => error.blamesPayload = false

namespace Query

variable [PairKey]

variable {α β : Type}

theorem check_run (x : ExceptT BindError Query α) (f : α → ExceptT BindError Query β)
    (context : Context) : (x >>= f).run.run context =
      match (x.run.run context).1 with
      | .ok result => (f result).run.run (x.run.run context).2
      | .error error => (.error error, (x.run.run context).2) := by
  rw [ExceptT.run_bind, bind_run]
  cases (x.run.run context).1 <;> rfl

def Blameless (work : ExceptT BindError Query α) : Prop :=
  ∀ context : Context, Excusable (work.run.run context).1

namespace Blameless

theorem pure (result : α) : Blameless (pure result) := fun _ => trivial

theorem throw {error : BindError} (legitimate : error.blamesPayload = false) :
    Blameless (throw error : ExceptT BindError Query α) := fun _ => legitimate

theorem bindLift (x : Query α) {f : α → ExceptT BindError Query β} (rest : ∀ u, Blameless (f u)) :
    Blameless (ExceptT.lift x >>= f) :=
  fun context => rest (x.run context).1 (x.run context).2

theorem bind {x : ExceptT BindError Query α} {f : α → ExceptT BindError Query β}
    (first : Blameless x) (rest : ∀ u, Blameless (f u)) : Blameless (x >>= f) := by
  intro context
  have excusable := first context
  rw [check_run]
  cases outcome : (x.run.run context).1 with
  | ok result => exact rest result _
  | error error => rwa [outcome] at excusable

end Blameless

end Query

namespace Check

variable [PairKey]

open Query (Blameless)

variable (q : Queries Query)

theorem arguments_blameless (callee : Ty) (index : Nat) (args : List Ty) :
    Blameless (arguments q callee index args) := by
  induction args generalizing index with
  | nil => exact Blameless.pure ()
  | cons argument rest ih =>
      simp only [arguments]
      split
      · exact Blameless.throw rfl
      · apply Blameless.bindLift
        intro holds
        cases holds with
        | true => exact ih (index + 1)
        | false => exact Blameless.throw rfl

theorem call_blameless (callee : Ty) (args : List Ty) : Blameless (call q callee args) := by
  unfold call
  split
  · exact Blameless.throw rfl
  · split
    · apply Blameless.bind (arguments_blameless q callee 0 args)
      intro _
      split
      · exact Blameless.throw rfl
      · exact Blameless.pure _
    · exact Blameless.throw rfl

theorem operand_blameless (ty : Ty) : Blameless (operand q ty) := by
  apply Blameless.bindLift
  intro found
  cases found with
  | none => exact Blameless.throw rfl
  | some reduced => exact Blameless.pure _

theorem binary_blameless (operator : Operator) (left right : Ty) :
    Blameless (binary q operator left right) := by
  apply Blameless.bind (operand_blameless q left)
  intro l
  apply Blameless.bind (operand_blameless q right)
  intro r
  split
  · exact Blameless.throw rfl
  · exact Blameless.pure _

theorem chunk_blameless (ty : Ty) : Blameless (chunk q ty) := by
  apply Blameless.bindLift
  intro found
  split
  · exact Blameless.pure _
  · exact Blameless.pure _
  · exact Blameless.throw rfl

end Check

namespace Operator

theorem repeatText_cases (text : String) (count : Number) :
    (∃ result, repeatText text count = .ok result) ∨
      repeatText text count = .error (.repeatTooLarge text.utf8ByteSize count) := by
  unfold repeatText
  split
  · exact .inl ⟨_, rfl⟩
  · split
    · exact .inl ⟨_, rfl⟩
    · exact .inr rfl
  · exact .inr rfl

/-- On payloads of the types it takes, an operator gives one of its result type, or a text that
would be too long. -/
theorem apply_cases {operator : Operator} {l r ty : Ty} (result : operator.resultType l r = some ty)
    {left right : Binding} (first : l.admits left.payload = true)
    (second : r.admits right.payload = true) :
    (∃ payload, operator.apply left right = .ok ⟨payload, ty⟩ ∧ ty.admits payload = true) ∨
      ∃ length count, operator.apply left right = .error (.repeatTooLarge length count) := by
  obtain ⟨leftPayload, leftTy⟩ := left
  obtain ⟨rightPayload, rightTy⟩ := right
  unfold resultType at result
  split at result <;> cases result
  · obtain ⟨a, rfl⟩ := Ty.number_admits first
    obtain ⟨b, rfl⟩ := Ty.number_admits second
    exact .inl ⟨_, rfl, rfl⟩
  · obtain ⟨a, rfl⟩ := Ty.text_admits first
    obtain ⟨b, rfl⟩ := Ty.text_admits second
    exact .inl ⟨_, rfl, rfl⟩
  · obtain ⟨a, rfl⟩ := Ty.number_admits first
    obtain ⟨b, rfl⟩ := Ty.number_admits second
    exact .inl ⟨_, rfl, rfl⟩
  · obtain ⟨a, rfl⟩ := Ty.text_admits first
    obtain ⟨b, rfl⟩ := Ty.number_admits second
    rcases repeatText_cases a b with ⟨text, done⟩ | tooLarge
    · refine .inl ⟨.text text, ?_, rfl⟩
      simp only [apply, done]
      rfl
    · refine .inr ⟨a.utf8ByteSize, b, ?_⟩
      simp only [apply, tooLarge]
      rfl

end Operator

theorem Payload.chunk_ok {ty : Ty} {payload : Payload} (kind : ty = .text ∨ ty = .number)
    (admits : ty.admits payload = true) : ∃ text, payload.chunk = .ok text := by
  rcases kind with rfl | rfl
  · obtain ⟨value, rfl⟩ := Ty.text_admits admits
    exact ⟨value, rfl⟩
  · obtain ⟨value, rfl⟩ := Ty.number_admits admits
    exact ⟨value.templateText, rfl⟩

namespace Eval

variable [PairKey]

theorem binary_run (operator : Operator) (left right : Binding) (context : Context) :
    (binary Query.queries operator left right).run.run context =
      let checked := (Check.binary Query.queries operator left.ty right.ty).run.run context
      match checked.1 with
      | .ok _ => (operator.apply left right, checked.2)
      | .error error => (.error error, checked.2) := by
  unfold binary
  rw [Query.check_run]
  generalize (Check.binary Query.queries operator left.ty right.ty).run.run context = checked
  obtain ⟨outcome, after⟩ := checked
  cases outcome with
  | error error => rfl
  | ok ty =>
      simp only
      cases operator.apply left right <;> rfl

theorem call_run (callee : Binding) (args : List Binding) (host : Host) (context : Context) :
    (call Query.queries callee args host).run.run context =
      let checked := (Check.call Query.queries callee.ty (args.map (·.ty))).run.run context
      match checked.1 with
      | .ok ty => ((host args).map (⟨·, ty⟩), checked.2)
      | .error error => (.error error, checked.2) := by
  unfold call
  rw [Query.check_run]
  generalize (Check.call Query.queries callee.ty (args.map (·.ty))).run.run context = checked
  obtain ⟨outcome, after⟩ := checked
  cases outcome with
  | error error => rfl
  | ok ty =>
      simp only
      cases host args <;> rfl

theorem member_run {object : Binding} (inhabited : object.Inhabited) (key : String)
    (context : Context) :
    ∃ outcome, Legitimate outcome ∧
      (member object key : ExceptT BindError Query Binding).run.run context =
        (outcome, context) := by
  obtain ⟨held, objectTy⟩ := object
  unfold member Check.member
  cases found : objectTy.member key with
  | none => exact ⟨.error (.noMember objectTy key), rfl, rfl⟩
  | some ty =>
      obtain ⟨payload, there, admits⟩ := Ty.member_admits found inhabited
      refine ⟨.ok ⟨payload, ty⟩, admits, ?_⟩
      cases held with
      | dictionary fields =>
          have entry : Keyed.get? key fields = some payload := there
          simp only [entry]
          rfl
      | _ => cases there

theorem binary_typed {operator : Operator} {left right : Binding} (first : left.Inhabited)
    (second : right.Inhabited) {context : Context} (obeys : context.cache.Obeys .cautious) {ty : Ty}
    (checked : ((Check.binary Query.queries operator left.ty right.ty).run.run context).1 =
      .ok ty) :
    (∃ payload, operator.apply left right = .ok ⟨payload, ty⟩ ∧ ty.admits payload = true) ∨
      ∃ length count, operator.apply left right = .error (.repeatTooLarge length count) := by
  have below := (Query.queries_cautious.checkBinary operator left.ty right.ty context obeys).2
  obtain ⟨-, l, r, result, counts, otherCounts⟩ := below ty checked
  exact Operator.apply_cases result (counts.admits first) (otherCounts.admits second)

theorem chunks_below {parts : List Binding} (inhabited : ∀ part ∈ parts, part.Inhabited) :
    Query.Below (fun x (_ : Unit) => Excusable x) (chunks Query.queries parts).run () := by
  induction parts with
  | nil => exact Query.Below.pure trivial
  | cons part rest ih =>
      have checked := (Query.queries_cautious.checkChunk part.ty).also
        (Check.chunk_blameless Query.queries part.ty)
      have others := ih fun other member => inhabited other (List.mem_cons_of_mem part member)
      apply checked.stepCheck
      · intro error both
        exact both.2
      · intro ty both
        obtain ⟨-, kind, counts⟩ := both.1 ty rfl
        obtain ⟨text, rendered⟩ :=
          Payload.chunk_ok kind (counts.admits (inhabited part List.mem_cons_self))
        rw [rendered]
        exact others.stepCheck (fun _ blameless => blameless) fun _ _ => Query.Below.pure trivial

end Eval

theorem Scope.Inhabited.define {scope : Scope} (inhabited : scope.Inhabited) {binding : Binding}
    (new : binding.Inhabited) {name : String} {next : Scope}
    (defined : scope.define name binding = .ok next) : next.Inhabited := by
  unfold Scope.define at defined
  split at defined <;> cases defined
  intro other found looked
  simp only [Scope.lookup, Keyed.get?_insert] at looked
  split at looked
  · next same =>
      split at same
      · cases same
        cases looked
        exact new
      · apply inhabited other found
        simp only [Scope.lookup, same]
        exact looked
  · cases looked

theorem Scope.inhabited_empty : Scope.empty.Inhabited := by
  intro name binding found
  cases found

theorem Scope.inhabited_host : Scope.host.Inhabited := by
  have console : Scope.console.Inhabited := by cbv
  have defined : Scope.empty.define "console" Scope.console = .ok Scope.host := by rfl
  exact Scope.inhabited_empty.define console defined

namespace Session

variable [PairKey]

/-- What every action keeps. -/
structure Fit (session : Session) : Prop where
  scope : session.scope.Inhabited
  context : session.context.cache.Obeys .cautious

/-- An action on inhabited bindings. A host that is called keeps to the type its call was
checked for. -/
def Allowed (session : Session) : Action → Prop
  | .define _ binding => binding.Inhabited
  | .lookup _ => True
  | .binary _ left right => left.Inhabited ∧ right.Inhabited
  | .member object _ => object.Inhabited
  | .template parts => ∀ part ∈ parts, part.Inhabited
  | .call callee args host =>
      callee.Inhabited ∧ (∀ arg ∈ args, arg.Inhabited) ∧
        ∀ ty, ((Check.call Query.queries callee.ty (args.map (·.ty))).run.run
          session.context).1 = .ok ty → Legitimate ((host args).map (⟨·, ty⟩))

def Allows : List Action → Session → Prop
  | [], _ => True
  | action :: rest, session => session.Allowed action ∧ Allows rest (session.perform action).2

variable {session : Session}

theorem define_legitimate (fit : session.Fit) (name : String) {binding : Binding}
    (inhabited : binding.Inhabited) :
    Legitimate (session.perform (.define name binding)).1 ∧
      (session.perform (.define name binding)).2.Fit := by
  simp only [perform, define]
  cases defined : session.scope.define name binding with
  | ok scope => exact ⟨inhabited, fit.scope.define inhabited defined, fit.context⟩
  | error error =>
      refine ⟨?_, fit⟩
      unfold Scope.define at defined
      split at defined <;> cases defined
      rfl

theorem lookup_legitimate (fit : session.Fit) (name : String) :
    Legitimate (session.scope.lookup name) := by
  cases found : session.scope.lookup name with
  | ok binding => exact fit.scope name binding found
  | error error =>
      unfold Scope.lookup at found
      split at found <;> cases found
      rfl

theorem binary_legitimate (fit : session.Fit) (operator : Operator) {left right : Binding}
    (first : left.Inhabited) (second : right.Inhabited) :
    Legitimate (session.perform (.binary operator left right)).1 ∧
      (session.perform (.binary operator left right)).2.Fit := by
  have below := Query.queries_cautious.checkBinary operator left.ty right.ty _ fit.context
  have blameless := Check.binary_blameless Query.queries operator left.ty right.ty session.context
  simp only [perform, onContext, Eval.binary_run]
  cases checked : ((Check.binary Query.queries operator left.ty right.ty).run.run
      session.context).1 with
  | error error =>
      rw [checked] at blameless
      exact ⟨blameless, fit.scope, below.1⟩
  | ok ty =>
      refine ⟨?_, fit.scope, below.1⟩
      rcases Eval.binary_typed first second fit.context checked with
        ⟨payload, done, admits⟩ | ⟨length, count, failed⟩
      · rw [done]
        exact admits
      · rw [failed]
        rfl

theorem member_legitimate (fit : session.Fit) {object : Binding} (inhabited : object.Inhabited)
    (key : String) :
    Legitimate (session.perform (.member object key)).1 ∧
      (session.perform (.member object key)).2.Fit := by
  obtain ⟨outcome, legitimate, run⟩ := Eval.member_run inhabited key session.context
  simp only [perform, onContext, run]
  exact ⟨legitimate, fit.scope, fit.context⟩

theorem template_legitimate (fit : session.Fit) {parts : List Binding}
    (inhabited : ∀ part ∈ parts, part.Inhabited) :
    Legitimate (session.perform (.template parts)).1 ∧
      (session.perform (.template parts)).2.Fit := by
  have below : Query.Below (fun x (_ : Unit) => Legitimate x)
      (Eval.template Query.queries parts).run () :=
    (Eval.chunks_below inhabited).stepCheck (fun _ excusable => excusable)
      fun text _ => Query.Below.pure (rfl : Ty.text.admits (.text text) = true)
  have done := below session.context fit.context
  exact ⟨done.2, fit.scope, done.1⟩

theorem call_legitimate (fit : session.Fit) (callee : Binding) (args : List Binding) (host : Host)
    (keeps : ∀ ty, ((Check.call Query.queries callee.ty (args.map (·.ty))).run.run
      session.context).1 = .ok ty → Legitimate ((host args).map (⟨·, ty⟩))) :
    Legitimate (session.perform (.call callee args host)).1 ∧
      (session.perform (.call callee args host)).2.Fit := by
  have below := Query.queries_cautious.checkCall callee.ty (args.map (·.ty)) _ fit.context
  have blameless := Check.call_blameless Query.queries callee.ty (args.map (·.ty)) session.context
  simp only [perform, onContext, Eval.call_run]
  cases checked : ((Check.call Query.queries callee.ty (args.map (·.ty))).run.run
      session.context).1 with
  | error error =>
      rw [checked] at blameless
      exact ⟨blameless, fit.scope, below.1⟩
  | ok ty => exact ⟨keeps ty checked, fit.scope, below.1⟩

theorem perform_legitimate (fit : session.Fit) {action : Action}
    (allowed : session.Allowed action) :
    Legitimate (session.perform action).1 ∧ (session.perform action).2.Fit := by
  cases action with
  | define name binding => exact define_legitimate fit name allowed
  | lookup name => exact ⟨lookup_legitimate fit name, fit⟩
  | binary operator left right => exact binary_legitimate fit operator allowed.1 allowed.2
  | member object key => exact member_legitimate fit allowed key
  | template parts => exact template_legitimate fit allowed
  | call callee args host => exact call_legitimate fit callee args host allowed.2.2

theorem run_legitimate {actions : List Action} (fit : session.Fit)
    (allows : session.Allows actions) :
    (∀ outcome ∈ (run actions session).1, Legitimate outcome) ∧ (run actions session).2.Fit := by
  induction actions generalizing session with
  | nil => exact ⟨List.forall_mem_nil _, fit⟩
  | cons action rest ih =>
      obtain ⟨allowed, later⟩ := allows
      have step := perform_legitimate fit allowed
      have tail := ih step.2 later
      constructor
      · intro outcome member
        rcases List.mem_cons.mp member with rfl | member
        · exact step.1
        · exact tail.1 outcome member
      · exact tail.2

theorem allows_append {before after : List Action} (allows : session.Allows (before ++ after)) :
    session.Allows before ∧ (run before session).2.Allows after := by
  induction before generalizing session with
  | nil => exact ⟨trivial, allows⟩
  | cons action rest ih =>
      obtain ⟨allowed, later⟩ := allows
      have split := ih later
      exact ⟨⟨allowed, split.1⟩, split.2⟩

theorem binary_checked (fit : session.Fit) {operator : Operator} {left right binding : Binding}
    (first : left.Inhabited) (second : right.Inhabited)
    (done : (session.perform (.binary operator left right)).1 = .ok binding) :
    ((Check.binary Query.queries operator left.ty right.ty).run.run session.context).1 =
      .ok binding.ty := by
  simp only [perform, onContext, Eval.binary_run] at done
  cases checked : ((Check.binary Query.queries operator left.ty right.ty).run.run
      session.context).1 with
  | error error =>
      rw [checked] at done
      cases done
  | ok ty =>
      rw [checked] at done
      rcases Eval.binary_typed first second fit.context checked with
        ⟨payload, applied, -⟩ | ⟨length, count, failed⟩
      · cases applied.symm.trans done
        rfl
      · cases failed.symm.trans done

end Session

/-- Whatever the settings and whatever was asked before, a session on inhabited bindings gives
inhabited bindings and never blames a payload, its scope stays inhabited, and an operator's
result has the type it was checked for. -/
theorem sessions_stay_inhabited [PairKey] (config : Config) (requests : List Request)
    (scope : Scope) (actions : List Action) (inhabited : scope.Inhabited)
    (allows : Session.Allows actions ⟨scope, Request.history requests (Context.new config)⟩) :
    let start : Session := ⟨scope, Request.history requests (Context.new config)⟩
    (∀ outcome ∈ (Session.run actions start).1, Legitimate outcome) ∧
    (Session.run actions start).2.scope.Inhabited ∧
    ∀ before operator left right after binding,
      actions = before ++ .binary operator left right :: after →
      let session := (Session.run before start).2
      (session.perform (.binary operator left right)).1 = .ok binding →
      ((Check.binary Query.queries operator left.ty right.ty).run.run session.context).1 =
        .ok binding.ty := by
  have fit : Session.Fit ⟨scope, Request.history requests (Context.new config)⟩ :=
    ⟨inhabited, Request.reached_cautious config requests⟩
  have done := Session.run_legitimate fit allows
  refine ⟨done.1, done.2.scope, ?_⟩
  rintro before operator left right after binding rfl
  obtain ⟨earlier, ⟨⟨first, second⟩, -⟩⟩ := Session.allows_append allows
  exact Session.binary_checked (Session.run_legitimate fit earlier).2 first second

def Binding.greeting : Binding := ⟨.text "hi", .union [.literal (.text "hi"), .text]⟩

def Action.greetings : List Action :=
  [.define "greeting" .greeting, .lookup "greeting", .binary .add .greeting (.text "!"),
    .member Scope.console "log", .template [.greeting],
    .call ⟨.native "console.log", .function [⟨"message", .union [.text, .number], none⟩] .void⟩
      [.greeting] fun _ => .ok .void]

def Session.small : Session :=
  ⟨Scope.host, Request.history [.ask (.subset .number .text)] (Context.new ⟨true, 3, 1⟩)⟩

theorem Session.allows_greetings : Session.small.Allows Action.greetings := by
  have console : Scope.console.Inhabited := by cbv
  have each : ∀ part ∈ [Binding.greeting], part.Inhabited := by
    intro part member
    rw [List.mem_singleton.mp member]
    rfl
  refine ⟨rfl, trivial, ⟨rfl, rfl⟩, console, each, ⟨rfl, each, fun ty checked => ?_⟩, trivial⟩
  have passes : ((Check.call Query.queries
      (.function [⟨"message", .union [.text, .number], none⟩] .void) [Binding.greeting.ty]).run.run
        (Session.run (Action.greetings.take 5) Session.small).2.context).1 = .ok .void := by cbv
  cases passes.symm.trans checked
  rfl

theorem sessions_stay_inhabited_greetings :
    (Session.run Action.greetings Session.small).1.map Except.isOk = List.replicate 6 true ∧
    (∀ outcome ∈ (Session.run Action.greetings Session.small).1, Legitimate outcome) ∧
    (Session.run Action.greetings Session.small).2.scope.Inhabited ∧
    ((Check.binary Query.queries .add Binding.greeting.ty (Binding.text "!").ty).run.run
      (Session.run (Action.greetings.take 2) Session.small).2.context).1 = .ok .text := by
  obtain ⟨outcomes, scope, checked⟩ := sessions_stay_inhabited ⟨true, 3, 1⟩
    [.ask (.subset .number .text)] Scope.host Action.greetings Scope.inhabited_host
    Session.allows_greetings
  have added : ((Session.run (Action.greetings.take 2) Session.small).2.perform
      (.binary .add .greeting (.text "!"))).1 = .ok ⟨.text "hi!", .text⟩ := by cbv
  have typed := checked (Action.greetings.take 2) .add .greeting (.text "!")
    (Action.greetings.drop 3) ⟨.text "hi!", .text⟩ rfl added
  exact ⟨by cbv, outcomes, scope, typed⟩

end StructuralTypes
