import StructuralTypes.Binding.Check
import StructuralTypes.Proofs.Caution
import StructuralTypes.Proofs.Memo

/-!
The limit on depth only makes a context refuse more. Whatever it was asked before, what it
affirms is affirmed plainly, and what is checked on it is checked plainly with the same type.
The one question left out is what the branches of a union have in common: branches lost under
a cutoff change the answer, and the checks that ask it look at primitive answers only.
-/

namespace StructuralTypes

def Answer.positive : Answer → Bool
  | .truth holds => holds
  | .type ty => ty.isSome

def Question.reduces : Question → Bool
  | .reduce _ => true
  | _ => false

/-- All branches count as one type. -/
def Ty.CountsAs (ty single : Ty) : Prop :=
  ∀ branch ∈ ty.branches, branch.carrier = single

theorem Operator.primitive_of_resultType {operator : Operator} {left right ty : Ty}
    (result : operator.resultType left right = some ty) :
    left.isPrimitive = true ∧ right.isPrimitive = true := by
  unfold Operator.resultType at result
  split at result <;> first | exact ⟨rfl, rfl⟩ | cases result

namespace Query

theorem ask_below [PairKey] (question : Question) :
    Below (fun x y => question.reduces = false → x.positive ≤ y.positive) question.ask
      (question.answerBy Reference.queries) := by
  intro context obeys
  have cautious := queries_cautious
  cases question with
  | subset a b => exact (cautious.subset a b context obeys).imp_right fun below _ => below
  | typeEqual a b => exact (cautious.typeEqual a b context obeys).imp_right fun below _ => below
  | resolvedEqual a b =>
      exact (cautious.resolvedEqual a b context obeys).imp_right fun below _ => below
  | valueEqual u v => exact (cautious.valueEqual u v context obeys).imp_right fun below _ => below
  | parametersEqual ps rs =>
      exact (cautious.parametersEqual ps rs context obeys).imp_right fun below _ => below
  | meet a b => exact (cautious.meet a b context obeys).imp_right fun below _ => below.found
  | meetAll as bs =>
      exact (cautious.meetAll as bs context obeys).imp_right fun below _ => below.found
  | reduce ty =>
      have done := cautious.reduce ty context obeys
      exact done.imp_right fun _ other => absurd other.symm Bool.false_ne_true
  | typesMatch a b => exact (cautious.typesMatch a b context obeys).imp_right fun below _ => below

/-- A check that passes on a context passes plainly, with the same result. -/
def Passes {α : Type} (x y : Except BindError α) : Prop := ∀ result, x = .ok result → y = .ok result

theorem Passes.refl {α : Type} (x : Except BindError α) : Passes x x := fun _ same => same

theorem Passes.error {α : Type} (error : BindError) (y : Except BindError α) :
    Passes (.error error) y := by
  intro result same
  cases same

theorem carrier_of_equal {x : Option Ty} {common : Ty} (same : x == some common)
    (primitive : common.carrier.isPrimitive = true) :
    ∃ ty, x = some ty ∧ ty.carrier = common.carrier := by
  cases x with
  | none => exact absurd same Bool.false_ne_true
  | some ty =>
      have carriers : (common.carrier == ty.carrier) = true := Ty.carrier_equal (BEq.symm same)
      exact ⟨ty, rfl, (Ty.eq_of_equal_primitive carriers primitive).symm⟩

namespace Below

variable [PairKey]

variable {α β γ δ : Type} {rel : α → β → Prop} {next : Except BindError γ → δ → Prop}

theorem stepLift {x : Query α} {y : Id β} {f : α → ExceptT BindError Query γ} {z : Id δ}
    (first : Below rel x y) (rest : ∀ u, rel u y.run → Below next (f u).run z) :
    Below next (ExceptT.lift x >>= f).run z := by
  intro context obeys
  have done := first context obeys
  exact rest _ done.2 _ done.1

theorem stepCheck {results : Except BindError α → β → Prop} {x : ExceptT BindError Query α}
    {y : Id β} {f : α → ExceptT BindError Query γ} {z : Id δ} (first : Below results x.run y)
    (failed : ∀ error, results (.error error) y.run → next (.error error) z.run)
    (passed : ∀ u, results (.ok u) y.run → Below next (f u).run z) :
    Below next (x >>= f).run z := by
  rw [ExceptT.run_bind]
  apply first.step
  intro outcome below
  cases outcome with
  | error error => exact Below.pure (failed error below)
  | ok u => exact passed u below

end Below

theorem operand_plain {ty reduced : Ty}
    (found : (Rules.reduce Reference.queries ty).run = some reduced) :
    (Check.operand Reference.queries ty).run.run = .ok reduced.carrier := by
  have answer : Rules.reduce Reference.queries ty = some reduced := found
  unfold Check.operand
  rw [answer]
  rfl

theorem binary_plain {operator : Operator} {left right l r ty : Ty}
    (first : (Check.operand Reference.queries left).run.run = .ok l)
    (second : (Check.operand Reference.queries right).run.run = .ok r)
    (result : operator.resultType l r = some ty) :
    (Check.binary Reference.queries operator left right).run.run = .ok ty := by
  have leftOperand : Check.operand Reference.queries left = Except.ok l := first
  have rightOperand : Check.operand Reference.queries right = Except.ok r := second
  unfold Check.binary
  rw [leftOperand, rightOperand]
  simp only [bind, ExceptT.bind, ExceptT.mk, ExceptT.bindCont, result]
  rfl

theorem chunk_plain {part reduced : Ty} {shape : Shape} (kind : shape = .text ∨ shape = .number)
    (found : (Rules.reduce Reference.queries part).run = some reduced)
    (carrier : reduced.carrier = .resolved shape) :
    (Check.chunk Reference.queries part).run.run = .ok (.resolved shape) := by
  have answer : Rules.reduce Reference.queries part = some reduced := found
  unfold Check.chunk
  rw [answer]
  cases reduced with
  | union parts => cases carrier
  | literal value =>
      obtain ⟨payload, held⟩ := value
      cases carrier
      rcases kind with rfl | rfl <;> rfl
  | resolved held =>
      cases carrier
      rcases kind with rfl | rfl <;> rfl

namespace Cautious

variable [PairKey]

variable {q : Queries Query}

theorem checkArguments (cautious : Cautious q) (callee : Ty) (index : Nat) (args : List Ty) :
    Below Passes (Check.arguments q callee index args).run
      (Check.arguments Reference.queries callee index args).run := by
  induction args generalizing index with
  | nil => exact Below.pure (Passes.refl _)
  | cons argument rest ih =>
      simp only [Check.arguments]
      split
      · exact Below.pure (Passes.refl _)
      · next parameter _ =>
          apply (cautious.typesMatch argument parameter).stepLift
          intro holds below
          cases holds with
          | false => exact Below.pure (Passes.error _ _)
          | true =>
              have passed : Rules.typesMatch Reference.queries argument parameter = true :=
                below rfl
              rw [passed]
              exact ih (index + 1)

theorem checkCall (cautious : Cautious q) (callee : Ty) (args : List Ty) :
    Below Passes (Check.call q callee args).run (Check.call Reference.queries callee args).run := by
  unfold Check.call
  split
  · exact Below.pure (Passes.refl _)
  · split
    · apply (cautious.checkArguments callee 0 args).stepCheck
      · intro error _
        exact Passes.error error _
      · intro done passes
        have plain : Check.arguments Reference.queries callee 0 args = Except.ok done :=
          passes done rfl
        rw [plain]
        split
        · exact Below.pure (Passes.refl _)
        · exact Below.pure (Passes.refl _)
    · exact Below.pure (Passes.refl _)

theorem checkOperand (cautious : Cautious q) (ty : Ty) :
    Below (fun x y => ∀ single, x = .ok single → single.isPrimitive = true →
        y = .ok single ∧ ty.CountsAs single)
      (Check.operand q ty).run (Check.operand Reference.queries ty).run := by
  apply (cautious.reduce ty).stepLift
  intro found below
  cases found with
  | none =>
      apply Below.pure
      intro single same
      cases same
  | some common =>
      apply Below.pure
      intro single same primitive
      cases same
      obtain ⟨plain, carriers⟩ := below common rfl primitive
      obtain ⟨reduced, found, carrier⟩ := carrier_of_equal plain primitive
      constructor
      · rw [operand_plain found, carrier]
      · exact carriers

theorem checkBinary (cautious : Cautious q) (operator : Operator) (left right : Ty) :
    Below (fun x y => ∀ ty, x = .ok ty → y = .ok ty ∧ ∃ l r, operator.resultType l r = some ty ∧
        left.CountsAs l ∧ right.CountsAs r)
      (Check.binary q operator left right).run
      (Check.binary Reference.queries operator left right).run := by
  apply (cautious.checkOperand left).stepCheck
  · intro error _ ty same
    cases same
  intro l first
  apply (cautious.checkOperand right).stepCheck
  · intro error _ ty same
    cases same
  intro r second
  split
  · apply Below.pure
    intro ty same
    cases same
  · next ty result =>
      apply Below.pure
      intro other same
      cases same
      -- an operator has a result on primitives only, so both operands are the plain ones
      obtain ⟨primitive, otherPrimitive⟩ := Operator.primitive_of_resultType result
      obtain ⟨plain, counts⟩ := first l rfl primitive
      obtain ⟨otherPlain, otherCounts⟩ := second r rfl otherPrimitive
      constructor
      · exact binary_plain plain otherPlain result
      · exact ⟨l, r, result, counts, otherCounts⟩

theorem checkChunk (cautious : Cautious q) (part : Ty) :
    Below (fun x y => ∀ ty, x = .ok ty →
        y = .ok ty ∧ (ty = .text ∨ ty = .number) ∧ part.CountsAs ty)
      (Check.chunk q part).run (Check.chunk Reference.queries part).run := by
  apply (cautious.reduce part).stepLift
  intro found below
  have displayed : ∀ shape : Shape, shape = .text ∨ shape = .number →
      found.map Ty.carrier = some (.resolved shape) →
      (Check.chunk Reference.queries part).run.run = .ok (.resolved shape) ∧
        part.CountsAs (.resolved shape) := by
    intro shape kind carried
    obtain ⟨common, rfl, carrier⟩ := Option.map_eq_some_iff.mp carried
    have primitive : common.carrier.isPrimitive = true := by
      rw [carrier]
      rcases kind with rfl | rfl <;> rfl
    obtain ⟨plain, carriers⟩ := below common rfl primitive
    obtain ⟨reduced, found, same⟩ := carrier_of_equal plain primitive
    constructor
    · exact chunk_plain kind found (same.trans carrier)
    · exact fun branch member => (carriers branch member).trans carrier
  split
  · next carried =>
      obtain ⟨plain, counts⟩ := displayed .text (.inl rfl) carried
      apply Below.pure
      intro ty same
      cases same
      exact ⟨plain, .inl rfl, counts⟩
  · next carried =>
      obtain ⟨plain, counts⟩ := displayed .number (.inr rfl) carried
      apply Below.pure
      intro ty same
      cases same
      exact ⟨plain, .inr rfl, counts⟩
  · apply Below.pure
    intro ty same
    cases same

end Cautious

end Query

theorem Request.reached_cautious [PairKey] (config : Config) (requests : List Request) :
    (history requests (Context.new config)).cache.Obeys .cautious :=
  history_obeys (fun question context obeys => (Query.ask_below question context obeys).1) config
    requests

/-- After any history, on any settings, a context affirms nothing that is not affirmed
plainly, and passes no check that does not pass plainly with the same type. -/
theorem affirmed_plainly [PairKey] (config : Config) (requests : List Request) :
    let context := Request.history requests (Context.new config)
    (∀ question : Question, question.reduces = false →
      (question.ask.run context).1.positive = true → question.answer.positive = true) ∧
    (∀ callee args ty, ((Check.call Query.queries callee args).run.run context).1 = .ok ty →
      (Check.call Reference.queries callee args).run.run = .ok ty) ∧
    (∀ operator left right ty,
      ((Check.binary Query.queries operator left right).run.run context).1 = .ok ty →
      (Check.binary Reference.queries operator left right).run.run = .ok ty) ∧
    (∀ part ty, ((Check.chunk Query.queries part).run.run context).1 = .ok ty →
      (Check.chunk Reference.queries part).run.run = .ok ty) := by
  have obeys := Request.reached_cautious config requests
  have cautious := Query.queries_cautious
  refine ⟨?_, ?_, ?_, ?_⟩
  · intro question single
    exact (Query.ask_below question _ obeys).2 single
  · intro callee args
    exact (cautious.checkCall callee args _ obeys).2
  · intro operator left right ty passes
    exact ((cautious.checkBinary operator left right _ obeys).2 ty passes).1
  · intro part ty passes
    exact ((cautious.checkChunk part _ obeys).2 ty passes).1

/-- The context of two levels affirms what it remembers, and its checks are the plain ones. -/
theorem affirmed_plainly_at_two_levels :
    let printer : Ty := .function [⟨"message", .numberOrText, none⟩] .void
    let greeting : Ty := .union [.literal (.text "hello"), .text]
    Question.scalarLists.reduces = false ∧
    (Question.scalarLists.ask.run Context.cutShort).1.positive = true ∧
    Question.scalarLists.answer.positive = true ∧
    ((Check.call Query.queries printer [.number]).run.run Context.cutShort).1 = .ok .void ∧
    (Check.call Reference.queries printer [.number]).run.run = .ok .void ∧
    ((Check.binary Query.queries .add greeting .text).run.run Context.cutShort).1 = .ok .text ∧
    (Check.binary Reference.queries .add greeting .text).run.run = .ok .text ∧
    ((Check.chunk Query.queries greeting).run.run Context.cutShort).1 = .ok .text ∧
    (Check.chunk Reference.queries greeting).run.run = .ok .text := by
  obtain ⟨asked, called, added, shown⟩ := affirmed_plainly ⟨true, 2, 4096⟩
    [.ask .scalarLists, .ask (.subset .numberOrText .scalar)]
  refine ⟨rfl, ?_, asked _ rfl ?_, ?_, called _ _ _ ?_, ?_, added _ _ _ _ ?_, ?_, shown _ _ ?_⟩ <;>
    cbv

end StructuralTypes
