import Storyline.Observe.Hook
import Storyline.Proofs.Bodies
import Storyline.Proofs.Enclosing
import Storyline.Proofs.EntryPoints
import Storyline.Proofs.Events

/-!
# What observers are told

The events of a run are followed from one moment to the next: what is executed invokes its steps
(`Moment.announced`), bodies tell of nothing but the stories they call, and the last moment raises a
failure or nothing (`Run.Raised`). So the observers of an invocation are told of its context first,
then of each step that is run, then of the failure that the run ends in, if it does, and at last
that it has ended, whatever it came to (`Mounts.observers_told`).

In between an observer may be told of other invocations, those that the steps make. They have
higher numbers, and by its number the notices of an invocation are picked out (`Notice.toldOf`).
-/

set_option autoImplicit false

namespace Storyline

variable {β : Type}

/-! ## Hooks -/

namespace Hook

theorem ofEvents_append (events later : List Event) :
    ofEvents (events ++ later) = ofEvents events ++ ofEvents later :=
  List.filterMap_append

end Hook

namespace Instruction

/-- What observers are told when an instruction is executed: the steps that it invokes. -/
def announced (ctx : Context) (i : Instruction β) : List Hook :=
  i.steps.map fun s => .stepInvoked s.qualified (i.seen ctx)

theorem ofEvents_opening (i : Instruction β) (r : Run) :
    Hook.ofEvents (i.opening r) = i.announced r.ctx := by
  cases i with
  | enter label number => rfl
  | leave => rfl
  | step s number protocol => rfl
  | parallel steps number protocol =>
      simp only [Hook.ofEvents, opening, announced, List.filterMap_map]
      exact congrFun List.filterMap_eq_map _

variable {perform : β → Context → Reply} (hBodies : ∀ body ctx, (perform body ctx).TellsCalls)

include hBodies

theorem tellsCalls_reply {calling : Calling} {ctx : Context} {s : Step β} {reply : Reply}
    (h : Run.reply? perform calling ctx s = some reply) : reply.TellsCalls := by
  unfold Run.reply? at h
  split at h
  · cases h
  · obtain rfl := Option.some.inj h
    exact hBodies s.body ctx

theorem tellsCalls_branchReply (calling : Calling) (ctx : Context) (s : Step β) :
    (Run.branchReply perform calling ctx s).TellsCalls := by
  unfold Run.branchReply
  cases hReply : Run.reply? perform calling ctx s with
  | none => exact fun event hEvent => by cases hEvent
  | some reply => exact tellsCalls_reply hBodies hReply

/-- Bodies tell of the stories they call, and a single step of its answer. -/
theorem isCall_or_of_mem_spoken {calling : Calling} {i : Instruction β} {r : Run} {event : Event}
    (h : event ∈ i.spoken perform calling r) :
    event.isCall = true ∨ ∃ step outcome, event = .answered step outcome := by
  cases i with
  | enter label number => cases h
  | leave => cases h
  | step s number protocol =>
      rw [spoken] at h
      cases hReply : Run.reply? perform calling ((step s number protocol).seen r.ctx) s with
      | none =>
          rw [hReply] at h
          cases h
      | some reply =>
          rw [hReply] at h
          rcases List.mem_append.mp h with hBody | hAnswer
          · exact .inl (tellsCalls_reply hBodies hReply event hBody)
          · right
            cases hResult : reply.result with
            | error cause =>
                rw [hResult] at hAnswer
                cases hAnswer
            | ok outcome =>
                rw [hResult] at hAnswer
                exact ⟨_, _, List.mem_singleton.mp hAnswer⟩
  | parallel steps number protocol =>
      obtain ⟨events, hEvents, hEvent⟩ := List.mem_flatten.mp h
      obtain ⟨s, -, rfl⟩ := List.mem_map.mp hEvents
      exact .inl (tellsCalls_branchReply hBodies calling _ s event hEvent)

/-- Nothing is told of what bodies do and answer; the stories that they call have their own
observers. -/
theorem ofEvents_spoken (calling : Calling) (i : Instruction β) (r : Run) :
    Hook.ofEvents (i.spoken perform calling r) = [] := by
  refine List.filterMap_eq_nil_iff.mpr fun event hEvent => ?_
  rcases isCall_or_of_mem_spoken hBodies hEvent with hCall | ⟨step, outcome, rfl⟩
  · cases event with
    | called observers events => rfl
    | _ => cases hCall
  · rfl

end Instruction

/-! ## Moments -/

/-- What observers are told at a moment of a run, if its instruction is executed. -/
def Moment.announced (m : Moment β) : List Hook :=
  if m.before.skipped = 0 then m.instruction.announced m.before.ctx else []

namespace Run

/-- What observers are told at the end of a run that had some moments: of the failure of a step of
the last instruction, if its protocol allows it and the run ends in it, and of nothing else. -/
inductive Raised (done : List (Moment β)) : Except StoryError Ending → List Hook → Prop where
  | failure {m : Moment β} {s : Step β} {protocol : StepProtocol} {name : String}
      {reason : Option Reason} :
      done.getLast? = some m → s ∈ m.instruction.steps → s.name = name →
      m.instruction.protocol? = some protocol → protocol.checkReturn s.qualified reason = .ok () →
      Raised done (.ok (.failure name reason)) [.failureRaised s.qualified reason]
  | nothing {ending : Except StoryError Ending} :
      (∀ name reason, ending ≠ .ok (.failure name reason)) → Raised done ending []

variable {plan : Plan β} {perform : β → Context → Reply} {calling : Calling}

theorem Raised.cons {done : List (Moment β)} {ending : Except StoryError Ending}
    {raised : List Hook} (h : Raised done ending raised) (m : Moment β) :
    Raised (m :: done) ending raised := by
  cases h with
  | nothing hEnding => exact .nothing hEnding
  | failure hLast hStep hName hProtocol hCheck =>
      refine .failure ?_ hStep hName hProtocol hCheck
      rw [List.getLast?_cons, hLast, Option.getD_some]

/-- What is told at one moment, and in addition if the run stops there. -/
theorem hooks_execute (hBodies : ∀ body ctx, (perform body ctx).TellsCalls) {m : Moment β}
    (hExecutes : m.Executes plan perform calling) :
    ∃ raised, Hook.ofEvents m.after.events =
        Hook.ofEvents m.before.events ++ m.announced ++ raised ∧
      (m.flow = .next ∧ raised = [] ∨
        ∃ ending, m.flow = .stop ending ∧ Raised [m] ending raised) := by
  obtain ⟨story, i, before, after, flow⟩ := m
  dsimp only [Moment.Executes] at hExecutes ⊢
  by_cases hRuns : before.skipped = 0
  · have hTold : Hook.ofEvents (before.events ++ i.opening before ++
        i.spoken perform calling before) =
          Hook.ofEvents before.events ++ Moment.announced ⟨story, i, before, after, flow⟩ := by
      rw [Hook.ofEvents_append, Hook.ofEvents_append, Instruction.ofEvents_opening,
        Instruction.ofEvents_spoken hBodies, List.append_nil]
      exact congrArg _ (if_pos hRuns).symm
    have hClose := closes_execute plan perform calling i hRuns
    rw [hExecutes] at hClose
    rw [← hTold]
    generalize before.events ++ i.opening before ++ i.spoken perform calling before = told at hClose
    cases hClose with
    | goesOn hEvents => exact ⟨[], by rw [hEvents, List.append_nil], .inl ⟨rfl, rfl⟩⟩
    | concludes hEvents =>
        refine ⟨[], by rw [hEvents, List.append_nil], .inr ⟨_, rfl, .nothing ?_⟩⟩
        exact fun name reason h => by cases h
    | failed hEvents hStep hProtocol hCheck =>
        refine ⟨_, ?_, .inr ⟨_, rfl, .failure rfl hStep rfl hProtocol hCheck⟩⟩
        rw [hEvents, Hook.ofEvents_append]
        rfl
    | erred hEvents =>
        refine ⟨[], ?_, .inr ⟨_, rfl, .nothing fun name reason h => by cases h⟩⟩
        rw [hEvents, Hook.ofEvents_append]
        rfl
    | turnedAway hEvents =>
        refine ⟨[], by rw [hEvents, List.append_nil], .inr ⟨_, rfl, .nothing ?_⟩⟩
        exact fun name reason h => by cases h
  · rw [execute_of_skipped hRuns] at hExecutes
    obtain ⟨rfl, rfl⟩ := Prod.mk.inj hExecutes
    refine ⟨[], ?_, .inl ⟨rfl, rfl⟩⟩
    rw [events_passOver, Moment.announced, if_neg hRuns, List.append_nil, List.append_nil]

/-- What is told in a run: of each moment in turn, and of the failure it ends in. -/
theorem hooks_moments (plan : Plan β) (calling : Calling)
    (hBodies : ∀ body ctx, (perform body ctx).TellsCalls)
    (scored : List (Story × Instruction β)) (r : Run) :
    ∃ raised, Raised (moments plan perform calling scored r)
        (endingOf (moments plan perform calling scored r)) raised ∧
      Hook.ofEvents (r.stateAfter (moments plan perform calling scored r)).events =
        Hook.ofEvents r.events ++
          (moments plan perform calling scored r).flatMap Moment.announced ++ raised := by
  induction scored generalizing r with
  | nil => exact ⟨[], .nothing fun name reason h => (by cases h), by simp [moments]⟩
  | cons first rest ih =>
      obtain ⟨story, i⟩ := first
      rw [moments]
      cases hExecute : r.execute plan perform calling i with
      | mk after flow =>
        obtain ⟨raised, hFirst, ⟨rfl, rfl⟩ | ⟨ending, rfl, hRaised⟩⟩ :=
          hooks_execute hBodies (m := ⟨story, i, r, after, flow⟩) hExecute
        · obtain ⟨raised, hRaised, hHooks⟩ := ih after
          refine ⟨raised, ?_, ?_⟩
          · rw [endingOf_cons_next rfl]
            exact hRaised.cons _
          · rw [stateAfter_cons, hHooks, hFirst, List.flatMap_cons, List.append_nil]
            simp only [List.append_assoc]
        · refine ⟨raised, hRaised, ?_⟩
          rw [stateAfter_cons, stateAfter_nil, hFirst, List.flatMap_singleton]

end Run

/-! ## Notices -/

namespace Notice

/-- What the notices of the invocation with a number tell. -/
def toldOf (number : Nat) (notices : List Notice) : List Hook :=
  (notices.filter (·.invocation == number)).map (·.hook)

theorem toldOf_append (number : Nat) (notices later : List Notice) :
    toldOf number (notices ++ later) = toldOf number notices ++ toldOf number later := by
  simp [toldOf]

/-- The notices of later invocations tell nothing of one. -/
theorem toldOf_eq_nil {number : Nat} {notices : List Notice}
    (h : ∀ notice ∈ notices, number < notice.invocation) : toldOf number notices = [] := by
  simp only [toldOf, List.map_eq_nil_iff, List.filter_eq_nil_iff, beq_iff_eq]
  exact fun notice hNotice hSame => absurd hSame (Nat.ne_of_gt (h notice hNotice))

theorem invocation_of_mem_ofEvent {observer : ObserverId} {observers : List ObserverId}
    {number : Nat} {event : Event} {notice : Notice}
    (h : notice ∈ ofEvent observer observers number event) : notice.invocation = number := by
  unfold ofEvent at h
  split at h
  · cases h
  · rw [List.eq_of_mem_replicate h]

theorem toldOf_ofEvent (observer : ObserverId) (observers : List ObserverId) (number : Nat)
    (event : Event) :
    toldOf number (ofEvent observer observers number event) =
      (Hook.ofEvents [event]).flatMap (List.replicate (toldTimes observer observers)) := by
  unfold ofEvent
  simp only [Hook.ofEvents, List.filterMap_cons, List.filterMap_nil]
  cases Hook.ofEvent? event with
  | none => rfl
  | some hook => simp [toldOf]

section

variable (observer : ObserverId)

mutual

/-- The invocations that the steps of an invocation make are numbered from the next number on. -/
theorem numbered_ofEvents (observers : List ObserverId) (number next : Nat) :
    (events : List Event) →
      next ≤ (ofEvents observer observers number next events).2 ∧
        ∀ notice ∈ (ofEvents observer observers number next events).1,
          notice.invocation = number ∨ next ≤ notice.invocation
  | [] => ⟨Nat.le_refl next, fun notice hNotice => by cases hNotice⟩
  | event :: rest => by
      obtain ⟨hNext, hCalled⟩ := numbered_inCalled next event
      obtain ⟨hLater, hRest⟩ :=
        numbered_ofEvents observers number (inCalled observer next event).2 rest
      refine ⟨Nat.le_trans hNext hLater, fun notice hNotice => ?_⟩
      rw [ofEvents, List.mem_append, List.mem_append] at hNotice
      rcases hNotice with (hNotice | hNotice) | hNotice
      · exact .inl (invocation_of_mem_ofEvent hNotice)
      · exact .inr (hCalled notice hNotice)
      · exact (hRest notice hNotice).imp_right (Nat.le_trans hNext)

theorem numbered_inCalled (next : Nat) :
    (event : Event) →
      next ≤ (inCalled observer next event).2 ∧
        ∀ notice ∈ (inCalled observer next event).1, next ≤ notice.invocation
  | .called observers events => by
      unfold inCalled
      split
      · obtain ⟨hNext, hNumbered⟩ := numbered_ofEvents observers next next events
        exact ⟨hNext, fun notice hNotice => (hNumbered notice hNotice).elim (by omega) id⟩
      · obtain ⟨hNext, hNumbered⟩ := numbered_ofEvents observers next (next + 1) events
        refine ⟨by omega, fun notice hNotice => ?_⟩
        exact (hNumbered notice hNotice).elim (by omega) (by omega)
  | .started _ _ | .entered _ _ | .left _ | .invoked _ _ | .answered _ _ | .erred _ | .failed _ _
  | .finished _ _ => ⟨Nat.le_refl next, fun notice hNotice => by cases hNotice⟩

end

/-- An invocation is told to each observer of it, as often as it is registered. -/
theorem toldOf_ofEvents (observers : List ObserverId) {number next : Nat} (hNumber : number < next)
    (events : List Event) :
    toldOf number (ofEvents observer observers number next events).1 =
      (Hook.ofEvents events).flatMap (List.replicate (toldTimes observer observers)) := by
  induction events generalizing next with
  | nil => rfl
  | cons event rest ih =>
      obtain ⟨hNext, hCalled⟩ := numbered_inCalled observer next event
      have hNested : toldOf number (inCalled observer next event).1 = [] :=
        toldOf_eq_nil fun notice hNotice => Nat.lt_of_lt_of_le hNumber (hCalled notice hNotice)
      have hSplit : event :: rest = [event] ++ rest := rfl
      rw [ofEvents, toldOf_append, toldOf_append, toldOf_ofEvent, hNested, List.append_nil,
        ih (Nat.lt_of_lt_of_le hNumber hNext), hSplit, Hook.ofEvents_append, List.flatMap_append]

/-- Nobody is told of what has no events. -/
theorem ofInvocation_nil (observers : List ObserverId) (number : Nat) :
    ofInvocation observer observers number [] = ([], number) := by
  simp [ofInvocation, inCalled, ofEvents]

theorem toldOf_ofInvocation {observers : List ObserverId} (hObserver : observer ∈ observers)
    (number : Nat) (events : List Event) :
    toldOf number (ofInvocation observer observers number events).1 =
      (Hook.ofEvents events).flatMap (List.replicate (toldTimes observer observers)) := by
  have hTimes : toldTimes observer observers ≠ 0 := by
    intro hNone
    rw [toldTimes, List.length_eq_zero_iff, List.filter_eq_nil_iff] at hNone
    exact hNone observer hObserver (beq_self_eq_true observer)
  cases events with
  | nil => rw [ofInvocation_nil]; rfl
  | cons event rest =>
      have hGiven : ¬ (toldTimes observer observers = 0 || (event :: rest).isEmpty) = true := by
        simp [hTimes]
      rw [ofInvocation, inCalled, if_neg hGiven]
      exact toldOf_ofEvents observer observers (Nat.lt_succ_self number) _

end

end Notice

/-! ## Invocations -/

namespace Mounted

/-- Whether a caller is turned away before anything happens: who blocks can not invoke a coroutine
story. -/
def TurnsAway (m : Mounted β) (calling : Calling) : Prop :=
  calling = .blocking ∧ m.plan.mode = .coroutine

variable {m : Mounted β} {perform : β → Context → Reply} {calling : Calling}
  {arguments : Bindings}

theorem invoke_of_not_turnsAway (h : ¬ m.TurnsAway calling) (perform : β → Context → Reply)
    (arguments : Bindings) :
    m.invoke perform calling arguments =
      (m.plan.invoke perform calling m.settings.reprWidth arguments).mapError .contract := by
  cases hMode : m.plan.mode with
  | function => exact invoke_of_function hMode perform calling arguments
  | coroutine =>
      cases calling with
      | waiting => rfl
      | blocking => exact absurd ⟨rfl, hMode⟩ h

/-- Whoever is turned away, or gives arguments that are rejected, invokes nothing. -/
theorem exists_invoke_eq_error
    (h : (∃ cause, m.plan.root.checkCall arguments = .error cause) ∨ m.TurnsAway calling)
    (perform : β → Context → Reply) :
    ∃ cause, m.invoke perform calling arguments = .error cause := by
  by_cases hTurned : m.TurnsAway calling
  · obtain ⟨rfl, hCoroutine⟩ := hTurned
    exact ⟨_, invoke_of_coroutine hCoroutine perform arguments⟩
  · obtain ⟨cause, hCheck⟩ := h.resolve_right hTurned
    refine ⟨.contract cause, ?_⟩
    rw [invoke_of_not_turnsAway hTurned, Plan.invoke, hCheck]
    rfl

end Mounted

/-- **What observers are told of an invocation.** If the arguments are rejected, or a caller who
blocks is turned away from a coroutine story, nobody is told anything. Otherwise each observer is
told, as often as it is registered: that the context was made; of each step that is run, groups
step by step, in the order of the plan and with the names and values from before its instruction;
of a failure exactly if the run ends in one that the protocol of its step allows; and at last, with
the context at the end, that the invocation has ended, whatever it came to.

Bodies may call other stories, and can tell nothing else; those of scripts do not
(`Script.tellsCalls_perform`). -/
theorem Mounts.observers_told {cast : Cast β} {tree : StoryTree β} {m : Mounted β}
    (h : Mounts cast tree m.plan) {perform : β → Context → Reply}
    (hBodies : ∀ body ctx, (perform body ctx).TellsCalls) (calling : Calling)
    (arguments : Bindings) {α : Type} (finish : Context → Ending → Except StoryError α) :
    let events := (m.answer perform calling arguments finish).events
    ((∃ cause, m.plan.root.checkCall arguments = .error cause) ∨ m.TurnsAway calling →
      ∀ observer number,
        Notice.ofInvocation observer m.observers number events = ([], number)) ∧
    ∀ values, m.plan.root.checkCall arguments = .ok values → ¬ m.TurnsAway calling →
      let start := m.plan.beginning m.settings.reprWidth values
      let moments := m.plan.moments tree perform calling m.settings.reprWidth values
      ∃ invocation raised,
        m.invoke perform calling arguments = .ok invocation ∧
        invocation.ctx = (start.stateAfter moments).ctx ∧
        moments.map Moment.instruction <+: m.plan.instructions ∧
        (∀ moment ∈ moments, (moment.instruction.seen moment.before.ctx).entries =
          moment.before.ctx.entries) ∧
        Run.Raised moments invocation.ending raised ∧
        ∀ observer ∈ m.observers, ∀ number,
          Notice.toldOf number (Notice.ofInvocation observer m.observers number events).1 =
            (.contextCreated m.plan.qualified start.ctx ::
              (moments.flatMap Moment.announced ++ raised ++
                [.finished m.plan.qualified invocation.ctx])).flatMap
              (List.replicate (Notice.toldTimes observer m.observers)) := by
  refine ⟨fun hNone observer number => ?_, fun values hCheck hTurned => ?_⟩
  · obtain ⟨cause, hInvoke⟩ := Mounted.exists_invoke_eq_error hNone perform
    rw [Mounted.answer_of_error hInvoke]
    exact Notice.ofInvocation_nil observer m.observers number
  · have hPlan := h.invoke_of_accepted perform calling m.settings.reprWidth hCheck
    have hInvoke := Mounted.invoke_of_not_turnsAway hTurned perform arguments
    rw [hPlan] at hInvoke
    obtain ⟨raised, hRaised, hHooks⟩ := Run.hooks_moments m.plan calling hBodies
      (tree.score m.plan.failures.isSome) (m.plan.beginning m.settings.reprWidth values)
    have hPrefix := (Run.map_moments_prefix m.plan perform calling
      (tree.score m.plan.failures.isSome)
      (m.plan.beginning m.settings.reprWidth values)).map Prod.snd
    rw [List.map_map, ← StoryTree.instructions, ← h.instructions_eq] at hPrefix
    refine ⟨_, raised, hInvoke, rfl, hPrefix, fun _ _ => Instruction.entries_seen _ _, hRaised, ?_⟩
    intro observer hObserver number
    dsimp only
    rw [Mounted.answer_of_ok hInvoke, Notice.toldOf_ofInvocation observer hObserver,
      Hook.ofEvents_append]
    refine congrArg (List.flatMap _) ?_
    exact congrArg (· ++ _) hHooks

/-! ## An example -/

namespace Shop

def watched : Mounted Body := { plan := plan, observers := ["till"] }

def misspelt : Bindings := .ofList [("prize", .nat 5)]

/-- The till hears of each step of the sale but the one that is left out, of its failure, and of
its end; and of nothing if the price is given by another name. -/
theorem sale_watched :
    (Notice.toldOf 0 (Notice.ofInvocation "till" watched.observers 0
      (watched.call answer .blocking arguments).events).1).map Hook.name =
        ["context_created", "step_invoked", "step_invoked", "step_invoked", "failure_raised",
          "finished"] ∧
      Notice.ofInvocation "till" watched.observers 0
        (watched.call answer .blocking misspelt).events = ([], 0) := by
  have hBodies : ∀ body ctx, (answer body ctx).TellsCalls :=
    fun body ctx event hEvent => by cases hEvent
  have hMounts : Mounts cast tree watched.plan := mounts
  obtain ⟨hRejected, -⟩ :=
    hMounts.observers_told hBodies .blocking misspelt fun _ ending => ending.value
  obtain ⟨-, hAccepted⟩ :=
    hMounts.observers_told hBodies .blocking arguments fun _ ending => ending.value
  refine ⟨?_, hRejected (.inl ⟨_, rfl⟩) "till" 0⟩
  obtain ⟨invocation, raised, hInvoke, -, -, -, hRaised, hTold⟩ :=
    hAccepted arguments rfl fun hTurned => by cases hTurned.2
  have hFails : ∃ sale, watched.invoke answer .blocking arguments = .ok sale ∧
      sale.ending = .ok (.failure "ship" (some (.token "sold out"))) := ⟨_, rfl, rfl⟩
  obtain ⟨sale, hSale, hEnding⟩ := hFails
  obtain rfl := Except.ok.inj (hInvoke.symm.trans hSale)
  rw [hEnding] at hRaised
  cases hRaised with
  | nothing hOther => exact absurd rfl (hOther _ _)
  | failure hLast hStep hName hProtocol hCheck =>
      refine (congrArg (List.map Hook.name) (hTold "till" (List.mem_singleton_self _) 0)).trans ?_
      -- the till is registered once
      exact congrArg (List.map Hook.name) (List.flatMap_singleton' _)

end Shop

end Storyline
