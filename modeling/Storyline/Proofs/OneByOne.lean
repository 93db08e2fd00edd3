import Storyline.Proofs.Groups
import Storyline.Proofs.Nesting
import Storyline.Proofs.Rows

/-!
# Groups and their steps one by one

The steps of a group see one context, and what they answer with is kept afterwards. Steps in a row
see what was kept of the steps before, and lines of their own in the history. To steps that look at
neither (`Step.Ignores`) this makes no difference: a story goes on with the same names, values and
origins after a group as after its steps in a row, or it ends with the values of the same step
(`Mounts.group_oneByOne`).

A row is followed step by step: as long as values are kept, the run has the names that the group
would have, and the steps that are left succeed in a row from there (`SucceedInRow`).
-/

set_option autoImplicit false

namespace Storyline

variable {β : Type}

/-! ## What steps do not look at -/

namespace Context

/-- A context is like another but for some names, and for the history. -/
structure AgreesOutside (ctx : Context) (names : List String) (ctx' : Context) : Prop where
  width_eq : ctx'.width = ctx.width
  entries_eq : ctx'.entries.filter (fun v => !names.contains v.name) =
    ctx.entries.filter fun v => !names.contains v.name

namespace AgreesOutside

variable {ctx ctx' ctx'' : Context} {names names' : List String}

theorem of_entries_eq (hWidth : ctx'.width = ctx.width) (hEntries : ctx'.entries = ctx.entries)
    (names : List String) : ctx.AgreesOutside names ctx' :=
  ⟨hWidth, by rw [hEntries]⟩

theorem mono (h : ctx.AgreesOutside names ctx') (hNames : names ⊆ names') :
    ctx.AgreesOutside names' ctx' := by
  have hFilter : ∀ entries : List Variable,
      (entries.filter fun v => !names.contains v.name).filter (fun v => !names'.contains v.name) =
        entries.filter fun v => !names'.contains v.name := by
    intro entries
    rw [List.filter_filter]
    refine List.filter_congr fun v _ => ?_
    by_cases hMem : v.name ∈ names
    · simp [hMem, hNames hMem]
    · simp [hMem]
  refine ⟨h.width_eq, ?_⟩
  rw [← hFilter, h.entries_eq, hFilter]

theorem trans (h : ctx.AgreesOutside names ctx') (h' : ctx'.AgreesOutside names ctx'') :
    ctx.AgreesOutside names ctx'' :=
  ⟨h'.width_eq.trans h.width_eq, h'.entries_eq.trans h.entries_eq⟩

/-- What a step sets are other names than those it does not set. -/
theorem extend (ctx : Context) (step : String) (values : Bindings) :
    ctx.AgreesOutside values.names (ctx.extend step values) := by
  refine ⟨rfl, ?_⟩
  rw [entries_extend, List.filter_append, List.append_right_eq_self, List.filter_eq_nil_iff]
  intro v hv
  have hName : v.name ∈ values.names := by
    rw [← map_name_setBy step values]
    exact List.mem_map_of_mem hv
  simpa using hName

/-- Other names have the same values. -/
theorem find?_eq (h : ctx.AgreesOutside names ctx') {name : String} (hName : name ∉ names) :
    ctx'.find? name = ctx.find? name := by
  have hFind : ∀ entries : List Variable,
      (entries.filter fun v => !names.contains v.name).find? (·.name == name) =
        entries.find? (·.name == name) := by
    intro entries
    rw [List.find?_filter]
    congr 1
    funext v
    by_cases hSame : v.name = name
    · simpa [hSame] using hName
    · simp [hSame]
  rw [find?, find?, ← hFind, h.entries_eq, hFind]

end AgreesOutside

end Context

section

variable {perform : β → Context → Reply} {calling : Calling} {names : List String}
  {ctx ctx' : Context} {s : Step β} {values : Bindings}

/-- A step ignores some names, and the history: it answers to all contexts alike that differ from a
given one in nothing else. -/
def Step.Ignores (perform : β → Context → Reply) (s : Step β) (names : List String)
    (ctx : Context) : Prop :=
  ∀ ctx', ctx.AgreesOutside names ctx' → (perform s.body ctx').result = (perform s.body ctx).result

/-- A step succeeds with the same values in all contexts that differ from a given one in some names,
and in the history, only. -/
def Step.SucceedsOutside (perform : β → Context → Reply) (calling : Calling) (s : Step β)
    (names : List String) (ctx : Context) (values : Bindings) : Prop :=
  ∀ ctx', ctx.AgreesOutside names ctx' →
    ∃ reply, Run.reply? perform calling ctx' s = some reply ∧ reply.result = .ok (.success values)

/-- Whether a step is run is not up to the context. -/
theorem Run.reply?_of_some {reply : Reply} (h : reply? perform calling ctx s = some reply)
    (ctx' : Context) :
    reply = perform s.body ctx ∧ reply? perform calling ctx' s = some (perform s.body ctx') := by
  unfold reply? at h ⊢
  cases calling <;> cases hMode : s.mode <;> rw [hMode] at h <;> cases h <;> exact ⟨rfl, rfl⟩

theorem Step.Ignores.succeedsOutside (h : s.Ignores perform names ctx)
    (hSuccess : (Run.branchReply perform calling ctx s).result = .ok (.success values)) :
    s.SucceedsOutside perform calling names ctx values := by
  intro ctx' hAgrees
  obtain ⟨reply, hReply, hResult⟩ := Run.exists_reply_of_branchReply hSuccess
  obtain ⟨rfl, hReply'⟩ := Run.reply?_of_some hReply ctx'
  exact ⟨_, hReply', (h ctx' hAgrees).trans hResult⟩

theorem Step.SucceedsOutside.of_agrees {names' : List String}
    (h : s.SucceedsOutside perform calling names ctx values) (hNames : names' ⊆ names)
    (hAgrees : ctx.AgreesOutside names ctx') :
    s.SucceedsOutside perform calling names' ctx' values :=
  fun ctx'' hOther => h ctx'' (hAgrees.trans (hOther.mono hNames))

end

/-! ## One step -/

/-- The check of values sees the names of the context, and shows the rest of it only. -/
theorem Contract.checkOutput_alike (c : Contract) (step : String) (values : Bindings)
    {width width' : Nat} {ctx ctx' : Context} (h : ctx.Alike width width' ctx') :
    (∃ kept, c.checkOutput step ctx values = .ok kept ∧
        c.checkOutput step ctx' values = .ok kept) ∨
      ∃ cause cause', c.checkOutput step ctx values = .error cause ∧
        c.checkOutput step ctx' values = .error cause' ∧
        (StoryError.contract cause).Alike (.contract cause') := by
  cases hSet : values.names.find? ctx.contains with
  | some name =>
      refine .inr ⟨.variableOverride name step ctx.display,
        .variableOverride name step ctx'.display, ?_, ?_, .variableOverride⟩
      · rw [checkOutput, hSet]
      · rw [checkOutput, h.contains_eq, hSet]
  | none =>
      have hSame : c.checkOutput step ctx' values = c.checkOutput step ctx values := by
        rw [checkOutput, checkOutput, h.contains_eq, hSet]
      rw [hSame]
      cases c.checkOutput step ctx values with
      | ok kept => exact .inl ⟨kept, rfl, rfl⟩
      | error cause => exact .inr ⟨cause, cause, rfl, rfl, .same _⟩

namespace Run

/-- A run goes on with the names of a context, while some stories are open. -/
structure GoesOn (ctx : Context) (depth : Nat) (r : Run) : Prop where
  alike : ctx.Alike ctx.width ctx.width r.ctx
  runs : r.skipped = 0
  depth_eq : r.depth = depth

/-- Two runs end with an error when the values of one step are checked: each is checked with the
names of a context, which are left behind, and the errors are the same but for what they show. -/
structure RejectAlike (c : Contract) (s : Step β) (values : Bindings) (reached : Context)
    (ended ended' : Run × Except StoryError Ending) : Prop where
  entries : ended.1.ctx.entries = reached.entries
  entries' : ended'.1.ctx.entries = reached.entries
  alike : ∃ ctx cause cause', ctx.entries = reached.entries ∧
    c.checkOutput s.qualified reached values = .error cause ∧
    c.checkOutput s.qualified ctx values = .error cause' ∧
    ended.2 = .error (.contract cause) ∧ ended'.2 = .error (.contract cause') ∧
    (StoryError.contract cause).Alike (.contract cause')

variable {plan : Plan β} {perform : β → Context → Reply} {calling : Calling} {number : Nat}
  {protocol : StepProtocol} {c : Contract} {r : Run} {ctx : Context} {depth : Nat} {s : Step β}
  {values : Bindings}

/-- A step that succeeds comes to the check of its values. -/
theorem GoesOn.execute_eq (h : GoesOn ctx depth r)
    (hSucceeds : s.SucceedsOutside perform calling [] ctx values) (number : Nat)
    (protocol : StepProtocol) :
    ∃ r', GoesOn ctx depth r' ∧ r.execute plan perform calling (.step s number protocol) =
      Run.commit plan s number values r' := by
  have hSeen : ctx.Alike ctx.width ctx.width (r.invoking s).ctx :=
    ⟨rfl, h.alike.width_eq', h.alike.entries_eq⟩
  obtain ⟨reply, hReply, hResult⟩ :=
    hSucceeds _ (.of_entries_eq hSeen.width_eq' hSeen.entries_eq [])
  let called : Run := { r.invoking s with events := (r.invoking s).events ++ reply.events }
  refine ⟨called.emit (.answered s.qualified (.success values)),
    ⟨hSeen, h.runs, h.depth_eq⟩, ?_⟩
  rw [execute_step h.runs, runStep_of_some hReply, hResult]
  rfl

/-- After a step whose values are kept the run goes on with them. -/
theorem GoesOn.drive_of_ok (h : GoesOn ctx depth r) (hContract : plan.contracts[number]? = some c)
    (hSucceeds : s.SucceedsOutside perform calling [] ctx values) {kept : Bindings}
    (hCheck : c.checkOutput s.qualified ctx values = .ok kept) (protocol : StepProtocol)
    (rest : List (Instruction β)) :
    ∃ r', GoesOn (ctx.extend s.qualified kept) depth r' ∧
      drive plan perform calling (.step s number protocol :: rest) r =
        drive plan perform calling rest r' := by
  obtain ⟨invoked, hInvoked, hExecute⟩ := h.execute_eq hSucceeds number protocol
  rcases c.checkOutput_alike s.qualified values hInvoked.alike with
    ⟨kept', hOk, hOk'⟩ | ⟨cause, cause', hError, -, -⟩
  · obtain rfl := Except.ok.inj (hCheck.symm.trans hOk)
    refine ⟨{ invoked with ctx := invoked.ctx.extend s.qualified kept },
      ⟨hInvoked.alike.extend s.qualified kept, hInvoked.runs, hInvoked.depth_eq⟩, ?_⟩
    rw [drive, hExecute, commit_of_ok hContract hOk']
  · cases hCheck.symm.trans hError

/-- A step whose values are rejected ends the run. -/
theorem GoesOn.drive_of_error (h : GoesOn ctx depth r)
    (hContract : plan.contracts[number]? = some c)
    (hSucceeds : s.SucceedsOutside perform calling [] ctx values) {cause : ContractError}
    (hCheck : c.checkOutput s.qualified ctx values = .error cause) (protocol : StepProtocol)
    (rest : List (Instruction β)) {ended : Run × Except StoryError Ending}
    (hEntries : ended.1.ctx.entries = ctx.entries) (hEnds : ended.2 = .error (.contract cause)) :
    RejectAlike c s values ctx ended
      (drive plan perform calling (.step s number protocol :: rest) r) := by
  obtain ⟨invoked, hInvoked, hExecute⟩ := h.execute_eq hSucceeds number protocol
  rcases c.checkOutput_alike s.qualified values hInvoked.alike with
    ⟨kept', hOk, -⟩ | ⟨other, cause', hError, hError', hAlike⟩
  · cases hCheck.symm.trans hOk
  · obtain rfl := Except.error.inj (hCheck.symm.trans hError)
    rw [drive, hExecute, commit_of_error hContract hError']
    exact ⟨hEntries, hInvoked.alike.entries_eq,
      ⟨_, _, _, hInvoked.alike.entries_eq, hCheck, hError', hEnds, rfl, hAlike⟩⟩

end Run

/-! ## Steps in a row -/

/-- The names that steps answer with. -/
def namesSet (branches : List (Step β × Bindings)) : List String :=
  branches.flatMap fun branch => branch.2.names

/-- Steps succeed in a row: each succeeds, whatever the steps before it set. -/
def SucceedInRow (perform : β → Context → Reply) (calling : Calling) (ctx : Context)
    (branches : List (Step β × Bindings)) : Prop :=
  ∀ before s values after, branches = before ++ (s, values) :: after →
    s.SucceedsOutside perform calling (namesSet before) ctx values

section

variable {perform : β → Context → Reply} {calling : Calling} {ctx reached : Context} {s : Step β}
  {values kept : Bindings} {before rest branches : List (Step β × Bindings)}

theorem SucceedInRow.head (h : SucceedInRow perform calling ctx ((s, values) :: rest)) :
    s.SucceedsOutside perform calling [] ctx values :=
  h [] s values rest rfl

/-- The steps of a group that all succeed, and ignore what the others set, succeed in a row. -/
theorem SucceedInRow.of_ignores {steps : List (Step β)}
    (hResults : (steps.map fun s => (s, (Run.branchReply perform calling ctx s).result)) =
      GroupResult.results (GroupResult.successes branches))
    (hIgnore : ∀ before s values after, branches = before ++ (s, values) :: after →
      s.Ignores perform (namesSet (before ++ after)) ctx) :
    SucceedInRow perform calling ctx branches := by
  intro before s values after hSplit
  have hMem : (s, .ok (.success values)) ∈
      GroupResult.results (GroupResult.successes branches) := by
    rw [hSplit]
    simp [GroupResult.results, GroupResult.successes]
  rw [← hResults] at hMem
  obtain ⟨other, -, hOther⟩ := List.mem_map.mp hMem
  obtain ⟨rfl, hSuccess⟩ := Prod.mk.inj hOther
  refine ((hIgnore before other values after hSplit).succeedsOutside hSuccess).of_agrees ?_
    (.of_entries_eq rfl rfl _)
  rw [namesSet, namesSet, List.flatMap_append]
  exact List.subset_append_left _ _

/-- When the values of the first step are kept, the others go on in a row. -/
theorem SucceedInRow.tail (h : SucceedInRow perform calling ctx ((s, values) :: rest))
    (hNames : kept.names = values.names) :
    SucceedInRow perform calling (ctx.extend s.qualified kept) rest := by
  rintro before t others after rfl
  have hFirst := Context.AgreesOutside.extend ctx s.qualified kept
  rw [hNames] at hFirst
  refine (h ((s, values) :: before) t others after rfl).of_agrees ?_ (hFirst.mono ?_)
  · exact List.subset_append_right values.names (namesSet before)
  · exact List.subset_append_left values.names (namesSet before)

namespace Run

variable {plan : Plan β} {number : Nat} {protocol : StepProtocol} {c : Contract} {r : Run}
  {depth : Nat}

/-- Steps in a row whose values are kept. -/
theorem GoesOn.drive_row (h : GoesOn ctx depth r) (hContract : plan.contracts[number]? = some c)
    (hSucceed : SucceedInRow perform calling ctx (before ++ rest))
    (hKept : c.keepAll before ctx = .ok reached) (protocol : StepProtocol)
    (others : List (Instruction β)) :
    ∃ r', GoesOn reached depth r' ∧ SucceedInRow perform calling reached rest ∧
      drive plan perform calling
          (before.map (fun branch => .step branch.1 number protocol) ++ others) r =
        drive plan perform calling others r' := by
  induction before generalizing ctx r with
  | nil =>
      obtain rfl := Except.ok.inj hKept
      exact ⟨r, h, hSucceed, rfl⟩
  | cons branch before ih =>
      obtain ⟨s, values⟩ := branch
      rw [Contract.keepAll] at hKept
      split at hKept
      · next kept hCheck =>
        obtain ⟨hNames, -⟩ := Contract.checkOutput_eq_ok hCheck
        obtain ⟨r₁, hGoesOn, hDrive⟩ := h.drive_of_ok hContract hSucceed.head hCheck protocol
          (before.map (fun branch => .step branch.1 number protocol) ++ others)
        obtain ⟨r', hGoesOn', hSucceed', hDrive'⟩ := ih hGoesOn (hSucceed.tail hNames) hKept
        exact ⟨r', hGoesOn', hSucceed', hDrive.trans hDrive'⟩
      · cases hKept

end Run

end

/-! ## Groups and rows -/

/-- The row of a group whose steps all succeed. -/
theorem Instruction.oneByOne_of_results {steps : List (Step β)} {number : Nat}
    {protocol : StepProtocol} {branches : List (Step β × Bindings)}
    {result : Step β → Except StepError Outcome}
    (h : (steps.map fun s => (s, result s)) =
      GroupResult.results (GroupResult.successes branches)) :
    (Instruction.parallel steps number protocol).oneByOne =
      branches.map fun branch => .step branch.1 number protocol := by
  have hFirst := congrArg (List.map Prod.fst) h
  have hSteps : steps = branches.map Prod.fst := by
    simpa [GroupResult.results, GroupResult.successes, Function.comp_def] using hFirst
  rw [Instruction.oneByOne, hSteps, List.map_map]
  rfl

section

variable {cast : Cast β} {tree : StoryTree β} {plan : Plan β} {steps : List (Step β)}
  {number : Nat} {protocol : StepProtocol}

/-- **Steps of a group and steps in a row.** A story mounts with the steps of its groups in a row.
Let the steps of a group succeed, and let none of them look at names that the others set, or at the
history. Then both stories go on with the same names, values and origins, or both end with the
rejection of the values of the same step. -/
theorem Mounts.group_oneByOne (h : Mounts cast tree plan)
    (hGroup : .parallel steps number protocol ∈ plan.instructions) :
    Mounts cast.oneByOne tree.oneByOne plan.oneByOne ∧ ∃ c, plan.contracts[number]? = some c ∧
      ∀ (perform : β → Context → Reply) (calling : Calling) (rest : List (Instruction β)) (r : Run)
        (branches : List (Step β × Bindings)), r.skipped = 0 →
        let group : Instruction β := .parallel steps number protocol
        let seen := group.seen r.ctx
        let together := Run.drive plan perform calling (group :: rest) r
        let apart := Run.drive plan.oneByOne perform calling
          ((group :: rest).flatMap Instruction.oneByOne) r
        (steps.map fun s => (s, (Run.branchReply perform calling seen s).result)) =
            GroupResult.results (GroupResult.successes branches) →
        (∀ before s values after, branches = before ++ (s, values) :: after →
            s.Ignores perform (namesSet (before ++ after)) seen) →
          (∃ reached r₁ r₂, c.keepAll branches seen = .ok reached ∧
            Run.GoesOn reached r.depth r₁ ∧ Run.GoesOn reached r.depth r₂ ∧
            together = Run.drive plan perform calling rest r₁ ∧
            apart = Run.drive plan.oneByOne perform calling
              (rest.flatMap Instruction.oneByOne) r₂) ∨
          ∃ before s values after reached, branches = before ++ (s, values) :: after ∧
            c.keepAll before seen = .ok reached ∧
            Run.RejectAlike c s values reached together apart := by
  obtain ⟨c, hContract⟩ := h.exists_contract_of_mem hGroup rfl
  refine ⟨h.oneByOne, c, hContract, fun perform calling rest r branches hRuns => ?_⟩
  intro group seen together apart hResults hIgnore
  have hContract' : plan.oneByOne.contracts[number]? = some c := hContract
  have hStart : Run.GoesOn seen r.depth r := ⟨⟨rfl, rfl, rfl⟩, hRuns, rfl⟩
  have hSucceed := SucceedInRow.of_ignores hResults hIgnore
  have hApart : apart = Run.drive plan.oneByOne perform calling
      (branches.map (fun branch => .step branch.1 number protocol) ++
        rest.flatMap Instruction.oneByOne) r := by
    rw [← Instruction.oneByOne_of_results hResults, ← List.flatMap_cons]
  obtain ⟨events, hTogether⟩ :=
    Run.drive_parallel plan perform calling steps number protocol rest hRuns
  rw [hResults, Run.judgeGroup_of_success] at hTogether
  rcases c.keepAll_cases branches seen with
    ⟨reached, hKept⟩ | ⟨before, reached, cause, hBroken, -⟩
  · rw [Run.commitAll_of_ok hContract hKept] at hTogether
    rw [← List.append_nil branches] at hSucceed
    obtain ⟨r₂, hGoesOn, -, hDrive⟩ := hStart.drive_row hContract' hSucceed hKept protocol
      (rest.flatMap Instruction.oneByOne)
    exact .inl ⟨reached, { r with ctx := reached, events := events }, r₂, hKept,
      ⟨⟨rfl, rfl, rfl⟩, hRuns, rfl⟩, hGoesOn, hTogether, hApart.trans hDrive⟩
  · rw [Run.commitAll_of_error hContract hBroken] at hTogether
    obtain ⟨hKept, s, values, after, rfl, hCheck⟩ := hBroken
    obtain ⟨invoked, hGoesOn, hSucceed', hDrive⟩ := hStart.drive_row hContract' hSucceed hKept
      protocol (.step s number protocol ::
        (after.map (fun branch => .step branch.1 number protocol) ++
          rest.flatMap Instruction.oneByOne))
    refine .inr ⟨before, s, values, after, reached, rfl, hKept, ?_⟩
    rw [hApart, List.map_append, List.map_cons, List.append_assoc, List.cons_append, hDrive]
    refine hGoesOn.drive_of_error hContract' hSucceed'.head hCheck protocol _ ?_ ?_
    · exact congrArg (·.1.ctx.entries) hTogether
    · exact congrArg Prod.snd hTogether

end

/-! ## An example

In the morning a diary is opened: a page is written while the mood is noted, which is the weather.
In the evening somebody looks at the history instead. -/

namespace Diary

open Mirror (Body answer)

def step (name : String) (body : Body) : Step Body where
  name := name
  owner := "Diary"
  mode := .function
  body := body

def write : Step Body := step "write" fun _ => .ok (.success (.ofList [("page", .nat 1)]))

/-- A step that notes the weather. -/
def feel : Step Body := step "feel" fun ctx => match ctx.find? "weather" with
  | some weather => .ok (.success (.ofList [("mood", weather)]))
  | none => .error (.message "nobody went out")

/-- A step that notes whether it has no line of its own in the history. -/
def look : Step Body := step "look" fun ctx =>
  let isShared := ctx.history.texts == ["Diary.evening", "  parallel(write, look)"]
  .ok (.success (.ofList [("shared", .bool isShared)]))

def morning : Story where
  name := ⟨"Diary", "morning"⟩
  arguments := ["weather"]
  collected := [.parallel ["write", "feel"]]
  spec := none
  failures := none

def evening : Story where
  name := ⟨"Diary", "evening"⟩
  arguments := []
  collected := [.parallel ["write", "look"]]
  spec := none
  failures := none

def cast : Cast Body :=
  .ofList [("diary", {
    className := "Diary"
    members := .ofList [("write", .step write), ("feel", .step feel), ("look", .step look)] })]

def morningTree : StoryTree Body := ⟨morning, "diary", .parallel [write, feel] .done⟩

def eveningTree : StoryTree Body := ⟨evening, "diary", .parallel [write, look] .done⟩

def morningPlan : Plan Body := (Plan.compile cast morning "diary").toOption.get rfl

def eveningPlan : Plan Body := (Plan.compile cast evening "diary").toOption.get rfl

def morningGroup : Instruction Body := .parallel [write, feel] 0 .null

def eveningGroup : Instruction Body := .parallel [write, look] 0 .null

/-- It is raining, and the story of the morning has been entered. -/
def opened : Run :=
  Run.entering "Diary.morning" { ctx := (Context.empty 88).addArgument "weather" (.string "rain") }

/-- The story of the evening has been entered. -/
def reopened : Run := Run.entering "Diary.evening" { ctx := .empty 88 }

/-- Who looks at the history sees whether there is a group, though nobody looks at a name. -/
theorem seen_apart :
    Mounts cast eveningTree eveningPlan ∧ Mounts cast eveningTree.oneByOne eveningPlan.oneByOne ∧
      eveningGroup ∈ eveningPlan.instructions ∧ reopened.skipped = 0 ∧
      ([write, look].map fun s =>
          (s, (Run.branchReply answer .blocking (eveningGroup.seen reopened.ctx) s).result)) =
        GroupResult.results (GroupResult.successes
          [(write, .ofList [("page", .nat 1)]), (look, .ofList [("shared", .bool true)])]) ∧
      (∀ s ∈ [write, look], ∀ ctx ctx' : Context, ctx'.history = ctx.history →
        answer s.body ctx' = answer s.body ctx) ∧
      let together := Run.drive eveningPlan answer .blocking [eveningGroup, .leave] reopened
      let apart := Run.drive eveningPlan.oneByOne answer .blocking
        ([eveningGroup, .leave].flatMap Instruction.oneByOne) reopened
      together.1.ctx.find? "shared" = some (.bool true) ∧
        apart.1.ctx.find? "shared" = some (.bool false) := by
  refine ⟨⟨rfl, .parallel .done⟩, ⟨rfl, .step (.step .done)⟩,
    List.mem_cons_of_mem _ List.mem_cons_self, rfl, rfl, ?_, rfl, rfl⟩
  intro s hs ctx ctx' hHistory
  rcases List.mem_pair.mp hs with rfl | rfl
  · rfl
  · simp only [answer, look, step, hHistory]

/-- The weather is noted whether or not a page is written before. -/
theorem felt_alike :
    let together := Run.drive morningPlan answer .blocking [morningGroup, .leave] opened
    let apart := Run.drive morningPlan.oneByOne answer .blocking
      ([morningGroup, .leave].flatMap Instruction.oneByOne) opened
    apart.1.ctx.entries = together.1.ctx.entries ∧
      together.1.ctx.names = ["weather", "page", "mood"] := by
  have hMounts : Mounts cast morningTree morningPlan := ⟨rfl, .parallel .done⟩
  have hGroup : morningGroup ∈ morningPlan.instructions :=
    List.mem_cons_of_mem _ List.mem_cons_self
  obtain ⟨-, c, -, hAlike⟩ := hMounts.group_oneByOne hGroup
  let page : Bindings := .ofList [("page", .nat 1)]
  let mood : Bindings := .ofList [("mood", .string "rain")]
  have hIgnore : ∀ before s values after, [(write, page), (feel, mood)] =
      before ++ (s, values) :: after →
      s.Ignores answer (namesSet (before ++ after)) (morningGroup.seen opened.ctx) := by
    intro before s values after hSplit ctx hAgrees
    rcases before with _ | ⟨first, _ | ⟨second, others⟩⟩
    · cases hSplit
      rfl
    · -- only the page is set before
      cases hSplit
      have hWeather : ctx.find? "weather" = (morningGroup.seen opened.ctx).find? "weather" :=
        hAgrees.find?_eq (by decide)
      simp only [answer, feel, step, hWeather]
    · simp at hSplit
  have hLeave : ∀ (plan : Plan Body) (r : Run), r.skipped = 0 →
      (Run.drive plan answer .blocking [.leave] r).1.ctx.entries = r.ctx.entries := by
    intro plan r hRuns
    rw [Run.drive, Run.execute_leave hRuns]
    rfl
  rcases hAlike answer .blocking [.leave] opened [(write, page), (feel, mood)] rfl rfl hIgnore with
    ⟨reached, r₁, r₂, -, hGoesOn, hGoesOn', hTogether, hApart⟩ |
    ⟨before, s, values, after, reached, -, -, hReject⟩
  · have hEntries := (hLeave morningPlan r₁ hGoesOn.runs).trans hGoesOn.alike.entries_eq
    have hEntries' := (hLeave morningPlan.oneByOne r₂ hGoesOn'.runs).trans hGoesOn'.alike.entries_eq
    refine ⟨?_, rfl⟩
    exact (congrArg (·.1.ctx.entries) hApart).trans <|
      (hEntries'.trans hEntries.symm).trans (congrArg (·.1.ctx.entries) hTogether).symm
  · -- the morning comes to its end
    obtain ⟨_, _, _, -, -, -, hEnds, -⟩ := hReject.alike
    cases hEnds

end Diary

end Storyline
