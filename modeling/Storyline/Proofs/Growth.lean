import Storyline.Proofs.Checks
import Storyline.Proofs.Moments

/-!
# Contexts only grow

In the course of a run names are added to the context and never taken away, changed or set again.
Every name is an argument of the call, or was set by a step that answered with a success
(`Mounts.entries_at`).

Values and annotations can be kept in two lists, a table of values by name and a list of
annotations. The two stay in line as long as no name is set twice (`Context.IsGrown`,
`Mounts.isGrown_at`).
-/

set_option autoImplicit false

namespace Storyline

variable {β : Type}

/-! ## What keeping values adds -/

namespace Context

/-- The variables that a step adds to a context. -/
def setBy (step : String) (values : Bindings) : List Variable :=
  values.entries.map fun (name, value) => ⟨name, value, .step step⟩

theorem entries_extend (ctx : Context) (step : String) (values : Bindings) :
    (ctx.extend step values).entries = ctx.entries ++ setBy step values := rfl

theorem map_name_setBy (step : String) (values : Bindings) :
    (setBy step values).map Variable.name = values.names := by
  simp [setBy, Named.names]

/-- Accepted values leave the names of a context distinct. -/
theorem nodup_extend {ctx : Context} {c : Contract} {step : String} {given kept : Bindings}
    (h : c.checkOutput step ctx given = .ok kept) (hDistinct : ctx.names.Nodup) :
    (ctx.extend step kept).names.Nodup := by
  obtain ⟨hNames, hFresh, -⟩ := Contract.checkOutput_eq_ok h
  rw [names, entries_extend, List.map_append, map_name_setBy, hNames]
  -- the check refuses a name that is set already
  refine List.nodup_append.mpr ⟨hDistinct, given.distinct, ?_⟩
  rintro name hOld other hNew rfl
  exact hFresh name hNew hOld

end Context

namespace Contract.Keeps

variable {c : Contract} {branches : List (Step β × Bindings)} {ctx ctx' : Context}

theorem nodup (h : c.Keeps branches ctx ctx') (hDistinct : ctx.names.Nodup) :
    ctx'.names.Nodup := by
  induction h with
  | none hEntries =>
      rw [Context.names, hEntries]
      exact hDistinct
  | more hCheck _ ih => exact ih (Context.nodup_extend hCheck hDistinct)

/-- What is added was accepted, value by value, from one of the steps. -/
theorem exists_added (h : c.Keeps branches ctx ctx') :
    ∃ added, ctx'.entries = ctx.entries ++ added ∧
      ∀ v ∈ added, ∃ branch ∈ branches, ∃ seen kept,
        c.checkOutput branch.1.qualified seen branch.2 = .ok kept ∧
        (v.name, v.value) ∈ kept.entries ∧ v.origin = .step branch.1.qualified := by
  induction h with
  | none hEntries => exact ⟨[], by rw [hEntries, List.append_nil], by simp⟩
  | @more s given kept rest ctx ctx' hCheck _ ih =>
      obtain ⟨added, hAdded, hFrom⟩ := ih
      refine ⟨Context.setBy s.qualified kept ++ added, ?_, ?_⟩
      · rw [hAdded, Context.entries_extend, List.append_assoc]
      · intro v hv
        rcases List.mem_append.mp hv with hv | hv
        · obtain ⟨⟨name, value⟩, hEntry, rfl⟩ := List.mem_map.mp hv
          exact ⟨_, List.mem_cons_self, ctx, kept, hCheck, hEntry, rfl⟩
        · obtain ⟨branch, hBranch, hRest⟩ := hFrom v hv
          exact ⟨branch, List.mem_cons_of_mem _ hBranch, hRest⟩

end Contract.Keeps

/-! ## Moments that set names -/

/-- A moment sets a variable: one of its steps answered with a success, and the contract of its
story accepted the values and keeps this one among them. -/
def Moment.Sets (m : Moment β) (plan : Plan β) (perform : β → Context → Reply)
    (calling : Calling) (v : Variable) : Prop :=
  ∃ s given, m.instruction.Answers perform calling m.before.ctx s (.success given) ∧
    v.origin = .step s.qualified ∧
    ∃ number c, m.instruction.number? = some number ∧ plan.contracts[number]? = some c ∧
      ∃ seen kept, c.checkOutput s.qualified seen given = .ok kept ∧
        (v.name, v.value) ∈ kept.entries

/-- A moment brings a variable into the context: its name was not set before. -/
def Moment.Brings (m : Moment β) (v : Variable) : Prop :=
  v.name ∉ m.before.ctx.names ∧ v ∈ m.after.ctx.entries

/-- What a moment adds to the names. -/
structure Moment.Adds (m : Moment β) (plan : Plan β) (perform : β → Context → Reply)
    (calling : Calling) : Prop where
  added : ∃ added, m.after.ctx.entries = m.before.ctx.entries ++ added ∧
    ∀ v ∈ added, m.Sets plan perform calling v
  nodup : m.before.ctx.names.Nodup → m.after.ctx.names.Nodup
  /-- A single step adds something only if it answered with a success and the run goes on. -/
  single : ∀ s number protocol, m.instruction = .step s number protocol →
    m.after.ctx.entries = m.before.ctx.entries ∨
      m.flow = .next ∧
        ∃ given, m.instruction.Answers perform calling m.before.ctx s (.success given)

namespace Moment

variable {plan : Plan β} {perform : β → Context → Reply} {calling : Calling}

/-- Whatever is added to names that stay distinct is new. -/
theorem brings_of_mem {m : Moment β} {added : List Variable} {v : Variable}
    (hDistinct : m.after.ctx.names.Nodup)
    (hAdded : m.after.ctx.entries = m.before.ctx.entries ++ added) (hv : v ∈ added) :
    m.Brings v := by
  rw [Context.names, hAdded, List.map_append] at hDistinct
  refine ⟨fun hOld => ?_, ?_⟩
  · exact (List.nodup_append.mp hDistinct).2.2 _ hOld _ (List.mem_map_of_mem hv) rfl
  · rw [hAdded]
    exact List.mem_append_right _ hv

theorem Adds.of_entries_eq {m : Moment β} (h : m.after.ctx.entries = m.before.ctx.entries) :
    m.Adds plan perform calling where
  added := ⟨[], by rw [h, List.append_nil], by simp⟩
  nodup hDistinct := by
    rw [Context.names, h]
    exact hDistinct
  single _ _ _ _ := .inl h

/-- A moment adds what it keeps. -/
theorem Adds.of_keeps {m : Moment β} {branches : List (Step β × Bindings)} {number : Nat}
    {c : Contract} (hNumber : m.instruction.number? = some number)
    (hContract : plan.contracts[number]? = some c)
    (hAnswers : ∀ branch ∈ branches,
      m.instruction.Answers perform calling m.before.ctx branch.1 (.success branch.2))
    (hKeeps : c.Keeps branches (m.instruction.seen m.before.ctx) m.after.ctx)
    (hSingle : m.flow = .next ∨ ∃ steps number protocol,
      m.instruction = .parallel steps number protocol) : m.Adds plan perform calling where
  added := by
    obtain ⟨added, hAdded, hFrom⟩ := hKeeps.exists_added
    rw [Instruction.entries_seen] at hAdded
    refine ⟨added, hAdded, fun v hv => ?_⟩
    obtain ⟨branch, hBranch, seen, kept, hCheck, hEntry, hOrigin⟩ := hFrom v hv
    exact ⟨branch.1, branch.2, hAnswers branch hBranch, hOrigin, number, c, hNumber, hContract,
      seen, kept, hCheck, hEntry⟩
  nodup hDistinct := by
    refine hKeeps.nodup ?_
    rw [Context.names, Instruction.entries_seen]
    exact hDistinct
  single s number' protocol hStep := by
    rcases hSingle with hNext | ⟨steps, number, protocol', hGroup⟩
    · cases hKeeps with
      | none hEntries =>
          rw [Instruction.entries_seen] at hEntries
          exact .inl hEntries
      | @more first given _ rest _ _ hCheck _ =>
          -- the only step of the instruction is `s`
          have hAnswer := hAnswers (first, given) List.mem_cons_self
          have hMem : first ∈ m.instruction.steps := hAnswer.1
          rw [hStep] at hMem
          obtain rfl := List.mem_singleton.mp hMem
          exact .inr ⟨hNext, given, hAnswer⟩
    · rw [hStep] at hGroup
      cases hGroup

/-- Whatever a moment does, it only adds names. -/
theorem Adds.of_effect {m : Moment β}
    (h : Run.Effect plan perform calling m.instruction m.before (m.after, m.flow)) :
    m.Adds plan perform calling := by
  obtain ⟨story, i, before, after, flow⟩ := m
  cases h with
  | still hEntries _ => exact .of_entries_eq hEntries
  | failed hEntries _ _ _ => exact .of_entries_eq hEntries
  | kept hNumber hContract hAnswers hKeeps =>
      exact .of_keeps hNumber hContract hAnswers hKeeps (.inl rfl)
  | broken hGroup hContract hAnswers hKeeps =>
      subst hGroup
      exact .of_keeps rfl hContract hAnswers hKeeps (.inr ⟨_, _, _, rfl⟩)

end Moment

/-! ## Where the names of a context come from -/

/-- The variable that an argument of the call becomes, if a value is given. -/
def Plan.argument? (values : Bindings) (name : String) : Option Variable :=
  (values.find? name).map fun value => ⟨name, value, .argument⟩

/-- Names that are looked at one by one add one variable each, or none. -/
theorem Context.foldl_eq {add : Context → String → Context} {found? : String → Option Variable}
    (hAdd : ∀ ctx name, add ctx name = { ctx with entries := ctx.entries ++ (found? name).toList })
    (names : List String) (ctx : Context) :
    names.foldl add ctx = { ctx with entries := ctx.entries ++ names.filterMap found? } := by
  induction names generalizing ctx with
  | nil => simp
  | cons name rest ih =>
      rw [List.foldl_cons, ih, hAdd, List.filterMap_cons]
      dsimp only
      rw [List.append_assoc]
      cases found? name <;> rfl

/-- A run begins with the arguments that are given, and with an empty history. -/
theorem Plan.initialContext_eq (plan : Plan β) (width : Nat) (values : Bindings) :
    plan.initialContext width values =
      { entries := plan.root.argumentNames.filterMap (argument? values), width } := by
  refine Context.foldl_eq (fun ctx name => ?_) plan.root.argumentNames (Context.empty width)
  unfold argument?
  cases values.find? name with
  | none => exact congrArg (fun entries => { ctx with entries }) (List.append_nil _).symm
  | some value => rfl

theorem Plan.entries_initialContext (plan : Plan β) (width : Nat) (values : Bindings) :
    (plan.initialContext width values).entries =
      plan.root.argumentNames.filterMap (argument? values) := by
  rw [initialContext_eq]

/-- The names that a run begins with are distinct. -/
theorem Plan.nodup_initialContext (plan : Plan β) (width : Nat) (values : Bindings) :
    (plan.initialContext width values).names.Nodup := by
  rw [Context.names, entries_initialContext]
  -- they are some of the arguments, in the same order
  refine List.Nodup.sublist ?_ (Catalog.nodup_names plan.root.sources)
  show ((plan.root.argumentNames.filterMap (argument? values)).map Variable.name).Sublist
    plan.root.argumentNames
  induction plan.root.argumentNames with
  | nil => exact .slnil
  | cons name rest ih =>
      rw [List.filterMap_cons, argument?]
      cases values.find? name with
      | none => exact ih.cons name
      | some value => exact ih.cons_cons name

section

variable {cast : Cast β} {tree : StoryTree β} {plan : Plan β} {perform : β → Context → Reply}
  {calling : Calling} {width : Nat} {values : Bindings}

/-- **Where the names of a context come from**, at every point of a run: they are those the run
began with, followed by those that steps have set. -/
theorem Mounts.entries_at (h : Mounts cast tree plan) {done rest : List (Moment β)}
    (hPoint : plan.moments tree perform calling width values = done ++ rest) :
    let ctx := ((plan.beginning width values).stateAfter done).ctx
    ctx.names.Nodup ∧
      ∃ added, ctx.entries = (plan.initialContext width values).entries ++ added ∧
        ∀ v ∈ added, ∃ m ∈ done, m.Brings v ∧ m.Sets plan perform calling v := by
  refine Run.moments_induction
    (P := fun done r => r.ctx.names.Nodup ∧
      ∃ added, r.ctx.entries = (plan.initialContext width values).entries ++ added ∧
        ∀ v ∈ added, ∃ m ∈ done, m.Brings v ∧ m.Sets plan perform calling v) ?_ ?_ hPoint
  · exact ⟨plan.nodup_initialContext width values, [], (List.append_nil _).symm, by simp⟩
  · -- a moment adds to what was added before it
    rintro done m ⟨hDistinct, added, hAdded, hFrom⟩ hMem hExecutes
    have hAdds := Moment.Adds.of_effect (h.effect hMem hExecutes)
    obtain ⟨more, hMore, hSets⟩ := hAdds.added
    have hStill := hAdds.nodup hDistinct
    refine ⟨hStill, added ++ more, ?_, fun v hv => ?_⟩
    · rw [hMore, hAdded, List.append_assoc]
    · rcases List.mem_append.mp hv with hOld | hNew
      · obtain ⟨before, hBefore, hSet⟩ := hFrom v hOld
        exact ⟨before, List.mem_append_left _ hBefore, hSet⟩
      · exact ⟨m, by simp, Moment.brings_of_mem hStill hMore hNew, hSets v hNew⟩

end

/-! ## Two lists -/

namespace Context

/-- The values by name, as a table in which a name that is set again would lose its old value. -/
def table (ctx : Context) : Bindings := .ofList (ctx.entries.map fun v => (v.name, v.value))

/-- The annotations as a list of their own, one for every time that a name was set. -/
def notes (ctx : Context) : List String := ctx.entries.map (·.origin.text)

/-- The two lists of a context after some moments of a run that began with the context `start`. -/
structure IsGrown (ctx start : Context) (perform : β → Context → Reply) (calling : Calling)
    (done : List (Moment β)) : Prop where
  /-- No name occurs twice. -/
  nodup : ctx.names.Nodup
  /-- The table has all names, in the order in which they were set. -/
  names_eq : ctx.table.names = ctx.names
  /-- There is one annotation for each name. -/
  length_eq : ctx.notes.length = ctx.table.names.length
  /-- The first names are those the run began with, with their values. -/
  initial : start.table.entries <+: ctx.table.entries
  /-- Those are annotated as arguments, and no others. -/
  argument : ∀ k : Nat, ctx.notes[k]? = some "Story argument" ↔ k < start.names.length
  /-- All others are annotated with the step whose success set them. -/
  setBy : ∀ (k : Nat) (name : String), start.names.length ≤ k → ctx.names[k]? = some name →
    ∃ m ∈ done, name ∉ m.before.ctx.names ∧ name ∈ m.after.ctx.names ∧ ∃ s given,
      m.instruction.Answers perform calling m.before.ctx s (.success given) ∧
      name ∈ given.names ∧ ctx.notes[k]? = some ("Set by " ++ s.qualified)

/-- As long as names are distinct the table has the names with their values as they are. -/
theorem entries_table {ctx : Context} (h : ctx.names.Nodup) :
    ctx.table.entries = ctx.entries.map fun v => (v.name, v.value) := by
  refine Named.entries_ofList ?_
  rw [List.map_map]
  exact h

theorem names_table {ctx : Context} (h : ctx.names.Nodup) : ctx.table.names = ctx.names := by
  rw [Named.names, entries_table h, List.map_map]
  rfl

/-- Tables grow with the entries they are made of. -/
theorem table_prefix {ctx ctx' : Context} {added : List Variable} (h : ctx'.names.Nodup)
    (hAdded : ctx'.entries = ctx.entries ++ added) :
    ctx.table.entries <+: ctx'.table.entries := by
  have hNames : ctx'.names = ctx.names ++ added.map Variable.name := by
    rw [names, hAdded, List.map_append]
    rfl
  have hOld : ctx.names.Nodup := by
    rw [hNames] at h
    exact h.sublist (List.sublist_append_left _ _)
  rw [entries_table h, entries_table hOld, hAdded, List.map_append]
  exact List.prefix_append _ _

end Context

theorem Origin.text_step_ne (qualified : String) :
    (Origin.step qualified).text ≠ Origin.argument.text := by
  intro h
  have hChars := congrArg String.toList h
  simp [Origin.text] at hChars

section

variable {cast : Cast β} {tree : StoryTree β} {plan : Plan β} {perform : β → Context → Reply}
  {calling : Calling} {width : Nat} {values : Bindings}

theorem Plan.origin_initialContext {v : Variable}
    (h : v ∈ (plan.initialContext width values).entries) : v.origin = .argument := by
  rw [Plan.entries_initialContext] at h
  obtain ⟨name, -, hArgument⟩ := List.mem_filterMap.mp h
  obtain ⟨value, -, rfl⟩ := Option.map_eq_some_iff.mp hArgument
  rfl

/-- A variable that was set was given, by name, by the step that set it. -/
theorem Moment.Sets.mem_given {m : Moment β} {v : Variable}
    (h : m.Sets plan perform calling v) : ∃ s given,
      m.instruction.Answers perform calling m.before.ctx s (.success given) ∧
      v.name ∈ given.names ∧ v.origin = .step s.qualified := by
  obtain ⟨s, given, hAnswers, hOrigin, number, c, -, -, seen, kept, hCheck, hEntry⟩ := h
  obtain ⟨hNames, -, -⟩ := Contract.checkOutput_eq_ok hCheck
  refine ⟨s, given, hAnswers, ?_, hOrigin⟩
  rw [← hNames]
  exact List.mem_map_of_mem hEntry

/-- At every point of a run the two lists are in line, and tell which names are arguments and
which steps have set the others. -/
theorem Mounts.isGrown_at (h : Mounts cast tree plan) {done rest : List (Moment β)}
    (hPoint : plan.moments tree perform calling width values = done ++ rest) :
    ((plan.beginning width values).stateAfter done).ctx.IsGrown
      (plan.initialContext width values) perform calling done := by
  obtain ⟨hDistinct, added, hAdded, hFrom⟩ := h.entries_at hPoint
  set ctx := ((plan.beginning width values).stateAfter done).ctx
  set start := plan.initialContext width values
  have hStart : start.names.length = start.entries.length := by simp [Context.names]
  have hNote : ∀ k : Nat, ctx.notes[k]? = (ctx.entries[k]?).map (·.origin.text) := by
    simp [Context.notes]
  constructor
  case nodup => exact hDistinct
  case names_eq => exact Context.names_table hDistinct
  case length_eq => simp [Context.names_table hDistinct, Context.notes, Context.names]
  case initial => exact Context.table_prefix hDistinct hAdded
  case argument =>
    intro k
    rw [hNote, hAdded, hStart]
    constructor
    · -- a later name was set by a step, and its annotation reads otherwise
      intro hText
      by_contra hLater
      rw [List.getElem?_append_right (Nat.not_lt.mp hLater)] at hText
      obtain ⟨v, hv, hText⟩ := Option.map_eq_some_iff.mp hText
      obtain ⟨m, -, -, hSets⟩ := hFrom v (List.mem_of_getElem? hv)
      obtain ⟨s, given, -, -, hOrigin⟩ := hSets.mem_given
      rw [hOrigin] at hText
      exact Origin.text_step_ne _ hText
    · intro hEarly
      rw [List.getElem?_append_left hEarly, List.getElem?_eq_getElem hEarly]
      exact congrArg (fun origin => some (Origin.text origin))
        (Plan.origin_initialContext (List.getElem_mem hEarly))
  case setBy =>
    intro k name hLater hName
    rw [hStart] at hLater
    have hEntry : (ctx.entries[k]?).map Variable.name = some name := by
      rw [← hName, Context.names, List.getElem?_map]
    obtain ⟨v, hv, rfl⟩ := Option.map_eq_some_iff.mp hEntry
    -- behind the arguments stands what was added, and each of it was set by a moment
    have hAddedAt : added[k - start.entries.length]? = some v := by
      rw [← List.getElem?_append_right hLater, ← hAdded, hv]
    obtain ⟨m, hMoment, hBrings, hSets⟩ := hFrom v (List.mem_of_getElem? hAddedAt)
    obtain ⟨s, given, hAnswers, hGiven, hOrigin⟩ := hSets.mem_given
    refine ⟨m, hMoment, hBrings.1, List.mem_map_of_mem hBrings.2, s, given, hAnswers, hGiven, ?_⟩
    rw [hNote, hv, Option.map_some, hOrigin]
    rfl

/-- At every point the next instruction leaves all names and values in their places, and a single
step that does not succeed, or whose values are not accepted, leaves the two lists as they are. -/
theorem Mounts.grows_at (h : Mounts cast tree plan) {done later : List (Moment β)} {m : Moment β}
    (hPoint : plan.moments tree perform calling width values = done ++ m :: later) :
    m.before.ctx.table.entries <+: m.after.ctx.table.entries ∧
      ∀ s number protocol, m.instruction = .step s number protocol →
        m.after.ctx.table = m.before.ctx.table ∧ m.after.ctx.notes = m.before.ctx.notes ∨
          m.flow = .next ∧
            ∃ given, m.instruction.Answers perform calling m.before.ctx s (.success given) := by
  obtain ⟨hMem, hExecutes, hBefore⟩ := Run.moment_executes hPoint
  have hAdds := Moment.Adds.of_effect (h.effect hMem hExecutes)
  obtain ⟨added, hAdded, -⟩ := hAdds.added
  have hDistinct : m.before.ctx.names.Nodup := by
    rw [hBefore]
    exact (h.entries_at hPoint).1
  refine ⟨Context.table_prefix (hAdds.nodup hDistinct) hAdded, ?_⟩
  intro s number protocol hStep
  rcases hAdds.single s number protocol hStep with hSame | hSucceeds
  · refine .inl ⟨?_, ?_⟩
    · rw [Context.table, hSame, Context.table]
    · rw [Context.notes, hSame, Context.notes]
  · exact .inr hSucceeds

/-- **The context of a run is append-only.** At every point of an invocation the names are
distinct, each has its annotation, and the first of them are the arguments; the next instruction
leaves all names and values in their places, and a single step that does not succeed leaves names,
values and annotations as they are. -/
theorem Mounts.append_only (h : Mounts cast tree plan) {arguments : Bindings}
    {invocation : Invocation}
    (hInvoke : plan.invoke perform calling width arguments = .ok invocation) :
    ∃ values, plan.root.checkCall arguments = .ok values ∧
      let moments := plan.moments tree perform calling width values
      let ctxAfter := fun done => ((plan.beginning width values).stateAfter done).ctx
      invocation.ctx = ctxAfter moments ∧
      ∀ done rest, moments = done ++ rest →
        (ctxAfter done).IsGrown (plan.initialContext width values) perform calling done ∧
        ∀ m later, rest = m :: later →
          (ctxAfter done).table.entries <+: m.after.ctx.table.entries ∧
          ∀ s number protocol, m.instruction = .step s number protocol →
            m.after.ctx.table = (ctxAfter done).table ∧
                m.after.ctx.notes = (ctxAfter done).notes ∨
              m.flow = .next ∧ ∃ given,
                m.instruction.Answers perform calling (ctxAfter done) s (.success given) := by
  obtain ⟨values, hAccepted, hCtx, -⟩ := h.invoke_eq_ok hInvoke
  refine ⟨values, hAccepted, hCtx, fun done rest hPoint => ⟨h.isGrown_at hPoint, ?_⟩⟩
  rintro m later rfl
  obtain ⟨-, -, hBefore⟩ := Run.moment_executes hPoint
  have hGrows := h.grows_at hPoint
  rw [hBefore] at hGrows
  exact hGrows

end

/-- At the end of a sale the price is followed by the total. -/
theorem Shop.grown : ∃ invocation,
    plan.invoke answer .blocking 80 arguments = .ok invocation ∧
      invocation.ctx.table.names = ["price", "total"] ∧
      invocation.ctx.notes = ["Story argument", "Set by Shop.add"] ∧
      invocation.ctx.names.Nodup := by
  have hSale : ∃ invocation, plan.invoke answer .blocking 80 arguments = .ok invocation ∧
      invocation.ctx.table.names = ["price", "total"] ∧
      invocation.ctx.notes = ["Story argument", "Set by Shop.add"] := ⟨_, rfl, rfl, rfl⟩
  obtain ⟨invocation, hInvoke, hNames, hNotes⟩ := hSale
  obtain ⟨values, -, hCtx, hPoints⟩ := Mounts.append_only mounts hInvoke
  obtain ⟨hGrown, -⟩ := hPoints _ [] (List.append_nil _).symm
  exact ⟨invocation, hInvoke, hNames, hNotes, hCtx ▸ hGrown.nodup⟩

end Storyline
