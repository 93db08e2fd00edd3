import Storyline.Script.Body

/-!
# What bodies tell

The events of an invocation are those of its run and, in between, those that its bodies add. A body
of a script adds nothing but the stories it calls, each as one event with all that was told in it
(`Script.tellsCalls_perform`). It is shown of all expressions and statements, whatever is called.
-/

set_option autoImplicit false

namespace Storyline

/-- Whether an event stands for the invocation of another story. -/
def Event.isCall : Event → Bool
  | .called _ _ => true
  | _ => false

/-- A body tells of nothing but the stories it calls. -/
def Reply.TellsCalls (reply : Reply) : Prop := ∀ event ∈ reply.events, event.isCall = true

namespace Script

/-- An evaluation adds nothing but calls to what was told. -/
def Eval.TellsCalls {α : Type} (x : Eval α) : Prop :=
  ∀ told : List Event, (∀ event ∈ told, event.isCall = true) →
    ∀ event ∈ (x.run.run told).2, event.isCall = true

namespace Eval

variable {α γ : Type}

theorem tellsCalls_pure (a : α) : TellsCalls (pure a) := fun _ hTold => hTold

theorem tellsCalls_throw (cause : StepError) : TellsCalls (throw cause : Eval α) :=
  fun _ hTold => hTold

theorem TellsCalls.bind {x : Eval α} {f : α → Eval γ} (hFirst : TellsCalls x)
    (hRest : ∀ a, TellsCalls (f a)) : TellsCalls (x >>= f) := by
  intro told hTold
  have hThen := hFirst told hTold
  simp only [ExceptT.run_bind, StateT.run_bind]
  cases hRun : x.run.run told with
  | mk result later =>
    rw [hRun] at hThen
    cases result with
    | ok a => exact hRest a later hThen
    | error cause => exact hThen

theorem TellsCalls.discard {x : Eval α} (h : TellsCalls x) : TellsCalls (discard x) := by
  have hMap : Functor.discard x = x >>= fun _ => (pure PUnit.unit : Eval PUnit) := rfl
  rw [hMap]
  exact h.bind fun _ => tellsCalls_pure _

theorem tellsCalls_ofContext (read : Except ContextError α) : TellsCalls (ofContext read) := by
  cases read with
  | ok value => exact tellsCalls_pure value
  | error cause => exact tellsCalls_throw _

theorem tellsCalls_integer (v : Json) : TellsCalls (integer v) := by
  unfold integer
  split
  · exact tellsCalls_pure _
  · exact tellsCalls_throw _

theorem tellsCalls_calculate (op : Arithmetic) (a b : Int) : TellsCalls (calculate op a b) := by
  cases op with
  | add | sub | mul =>
    unfold calculate
    dsimp only
    split
    · exact tellsCalls_pure _
    · exact tellsCalls_throw _

end Eval

/-! ## Expressions and statements -/

open Eval

section

-- each of two mutual lemmas has the hypothesis, though one hands it to the other only
set_option linter.unusedSectionVars false

variable {invoke : Calling → String → Bindings → Eval Json}
  (hInvoke : ∀ calling mounted arguments, TellsCalls (invoke calling mounted arguments))
  (ctx : Context)

include hInvoke

mutual

theorem Expr.tellsCalls_eval : (e : Expr) → TellsCalls (e.eval invoke ctx)
  | .lit _ | .get _ | .has _ | .names | .items | .size | .isEmpty | .representation | .display
  | .history => tellsCalls_pure _
  | .required _ | .requiredAs _ _ => tellsCalls_ofContext _
  | .arithmetic op a b => by
      refine (tellsCalls_eval a).bind fun v => (tellsCalls_integer v).bind fun i => ?_
      exact (tellsCalls_eval b).bind fun w => (tellsCalls_integer w).bind fun j =>
        tellsCalls_calculate op i j
  | .less a b => by
      refine (tellsCalls_eval a).bind fun v => (tellsCalls_integer v).bind fun i => ?_
      exact (tellsCalls_eval b).bind fun w => (tellsCalls_integer w).bind fun j =>
        tellsCalls_pure _
  | .equal a b =>
      (tellsCalls_eval a).bind fun _ => (tellsCalls_eval b).bind fun _ => tellsCalls_pure _
  | .isNotTrue a => (tellsCalls_eval a).bind fun _ => tellsCalls_pure _
  | .call calling mounted arguments =>
      (tellsCalls_evalAll arguments).bind fun _ => hInvoke calling mounted _

theorem Expr.tellsCalls_evalAll :
    (arguments : List (String × Expr)) → TellsCalls (Expr.evalAll invoke ctx arguments)
  | [] => tellsCalls_pure _
  | (_, e) :: rest =>
      (tellsCalls_eval e).bind fun _ => (tellsCalls_evalAll rest).bind fun _ => tellsCalls_pure _

end

mutual

theorem Statement.tellsCalls_run :
    (statement : Statement) → TellsCalls (statement.run invoke ctx)
  | .success values => (Expr.tellsCalls_evalAll hInvoke ctx values).bind fun _ => tellsCalls_pure _
  | .failure _ | .skip | .next none => tellsCalls_pure _
  | .result value | .next (some value) =>
      (Expr.tellsCalls_eval hInvoke ctx value).bind fun _ => tellsCalls_pure _
  | .evaluate e =>
      (Expr.tellsCalls_eval hInvoke ctx e).discard.bind fun _ => tellsCalls_pure _
  | .choose condition yes no => by
      refine (Expr.tellsCalls_eval hInvoke ctx condition).bind fun v => ?_
      split
      · exact tellsCalls_runAll yes
      · exact tellsCalls_runAll no
  | .raise error => tellsCalls_throw error

theorem Statement.tellsCalls_runAll :
    (body : List Statement) → TellsCalls (Statement.runAll invoke ctx body)
  | [] => tellsCalls_pure _
  | statement :: rest => by
      refine (tellsCalls_run statement).bind fun outcome => ?_
      split
      · exact tellsCalls_pure _
      · exact tellsCalls_runAll rest

end

theorem Body.tellsCalls_reply (body : Body) : (Body.reply invoke ctx body).TellsCalls :=
  Statement.tellsCalls_runAll hInvoke ctx body [] (by simp)

end

/-! ## Calls between stories -/

theorem tellsCalls_callMounted (mounted : Named (Mounted Body)) (perform : Body → Context → Reply)
    (calling : Calling) (id : String) (arguments : Bindings) :
    TellsCalls (callMounted mounted perform calling id arguments) := by
  unfold callMounted
  split
  · exact tellsCalls_throw _
  · next m _ =>
    have hModify : ∀ event : Event, event.isCall = true →
        TellsCalls (modify (· ++ [event]) : Eval PUnit) := by
      intro event hEvent told hTold other hOther
      rcases List.mem_append.mp hOther with hOther | hOther
      · exact hTold other hOther
      · rw [List.mem_singleton.mp hOther, hEvent]
    refine (hModify _ rfl).bind fun _ => ?_
    split
    · exact tellsCalls_pure _
    · exact tellsCalls_throw _

theorem tellsCalls_performWithin (mounted : Named (Mounted Body)) (depth : Nat) (body : Body)
    (ctx : Context) : (performWithin mounted depth body ctx).TellsCalls := by
  cases depth with
  | zero => exact fun event hEvent => by cases hEvent
  | succ depth =>
      have hCalls := tellsCalls_callMounted mounted (performWithin mounted depth)
      exact Body.tellsCalls_reply hCalls ctx body

/-- **The bodies of a script tell of nothing but the stories they call.** -/
theorem tellsCalls_perform (mounted : Named (Mounted Body)) (body : Body) (ctx : Context) :
    (perform mounted body ctx).TellsCalls :=
  tellsCalls_performWithin mounted maxNesting body ctx

end Script

end Storyline
