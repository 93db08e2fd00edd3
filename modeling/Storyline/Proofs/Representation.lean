import Storyline.Proofs.Frame
import Storyline.Proofs.Growth
import Storyline.Proofs.Lines

/-!
# How contexts are shown

A context is shown in blocks of lines, one block for each name (`Context.representation_eq`). The
texts of values are on one line, whatever is in them (`Json.isLine_text`), so that a block has the
head line and, if the value does not fit there, the line with the value. Only names can break these
lines: those of the context, and those of the steps that set them, which stand in the annotations
(`Context.linesIn_representation_iff`). The annotations begin in one column: heads are filled up to
as many characters as the longest of them has bytes, and no text has more characters than bytes.

`Mounts.contexts_shown` has this for all contexts of a run.
-/

set_option autoImplicit false

namespace Storyline

variable {β : Type}

/-- There are no more characters than bytes. -/
theorem length_le_utf8ByteSize (text : String) : text.length ≤ text.utf8ByteSize := by
  rw [← String.ofList_toList (s := text)]
  induction text.toList with
  | nil => exact Nat.zero_le _
  | cons c rest ih =>
      have hCons : String.ofList (c :: rest) = String.singleton c ++ String.ofList rest := by
        rw [← String.toList_inj]
        simp
      have hPos := c.utf8Size_pos
      rw [hCons, String.length_append, String.utf8ByteSize_append, String.utf8ByteSize_singleton,
        String.length_singleton]
      omega

/-- An annotation is on one line if the name of its step is. -/
theorem Origin.isLine_text_iff {origin : Origin} :
    IsLine origin.text ↔ ∀ step, origin = .step step → IsLine step := by
  cases origin with
  | argument =>
      refine iff_of_true (by decide) fun step hStep => ?_
      cases hStep
  | step qualified =>
      have hMark : IsLine "Set by " := by decide
      rw [Origin.text, isLine_append, and_iff_right hMark]
      constructor
      · intro hStep step hSame
        cases hSame
        exact hStep
      · exact fun h => h qualified rfl

/-! ## The lines of a context -/

namespace Context

/-- A line with a name and its value would have more bytes than fit into the width. -/
abbrev IsWide (width : Nat) (name : String) (value : Json) : Prop :=
  width < name.utf8ByteSize + value.text.utf8ByteSize + 4

theorem isLong_eq (width : Nat) (v : Variable) :
    isLong width v = decide (IsWide width v.name v.value) := by
  have hLine : v.value.text.toList.contains '\n' = false := by
    simpa [IsLine] using v.value.isLine_text
  rw [isLong, hLine, Bool.or_false]

/-- The lines below the head line of a name. -/
def continuation (width : Nat) (name : String) (value : Json) : List String :=
  if IsWide width name value then ["    " ++ value.text] else []

theorem indented_text (v : Json) : indented v.text = ["    " ++ v.text] := by
  rw [indented, linesOf_eq_singleton v.isLine_text (by simpa using v.text_ne_empty)]
  simp

/-- A name with its value, annotated, is shown as some lines: a head line, in which the annotation
begins in a given column, and a continuation line with the value, if it has not been shown yet. -/
def IsShown (width column : Nat) (name : String) (value : Json) (note : String)
    (lines : List String) : Prop :=
  ∃ start spaces,
    start = "  " ++ name ++ ":" ++ (if IsWide width name value then "" else " " ++ value.text) ++
      String.ofList (List.replicate spaces ' ') ∧
    start.length = column ∧
    lines = (start ++ "# " ++ note) :: continuation width name value

/-- What comes before the annotation of a name. -/
def start (width longest : Nat) (v : Variable) : String :=
  "  " ++ padded (head width v) longest ++ "  "

/-- The lines of a name. -/
def block (width longest : Nat) (v : Variable) : List String :=
  (start width longest v ++ "# " ++ v.origin.text) :: continuation width v.name v.value

/-- The longest head of a context, in bytes. -/
def longest (ctx : Context) : Nat :=
  (ctx.entries.map fun v => (head ctx.width v).utf8ByteSize).foldl max 0

theorem intercalate_block (width longest : Nat) (v : Variable) :
    "\n".intercalate (block width longest v) =
      "  " ++ padded (head width v) longest ++ "  # " ++ v.origin.text ++ tail width v := by
  have hMark : "  " ++ "# " = "  # " := rfl
  rw [tail, isLong_eq, block, start, continuation, indented_text, ← hMark]
  by_cases hWide : IsWide width v.name v.value
  · rw [if_pos hWide, if_pos (decide_eq_true hWide), String.intercalate_cons_cons,
      String.intercalate_singleton]
    simp only [String.append_assoc]
  · rw [if_neg hWide, if_neg (by simpa using hWide), String.intercalate_singleton]
    simp only [String.append_assoc, String.append_empty]

/-- A context is shown block by block. -/
theorem representation_eq {ctx : Context} (hSome : ctx.entries ≠ []) :
    ctx.representation =
      "\n".intercalate ("Context:" :: (ctx.entries.map (block ctx.width ctx.longest)).flatten) := by
  have hBlocks : ∀ lines ∈ ["Context:"] :: ctx.entries.map (block ctx.width ctx.longest),
      lines ≠ [] := by
    simp [block]
  have hFlatten := intercalate_flatten hBlocks
  rw [List.map_cons, String.intercalate_singleton, List.flatten_cons, List.singleton_append,
    List.map_map] at hFlatten
  rw [← hFlatten, representation]
  split
  · next hNone => exact absurd hNone hSome
  · rw [longest]
    refine congrArg (fun lines => "\n".intercalate ("Context:" :: lines)) ?_
    exact List.map_congr_left fun v _ => (intercalate_block _ _ v).symm

theorem length_padded {text : String} {width : Nat} (h : text.length ≤ width) :
    (padded text width).length = width := by
  rw [padded, String.length_append, String.length_ofList, List.length_replicate]
  omega

theorem isShown_block {width longest : Nat} {v : Variable}
    (hLongest : (head width v).utf8ByteSize ≤ longest) :
    IsShown width (longest + 4) v.name v.value v.origin.text (block width longest v) := by
  have hLength : (padded (head width v) longest).length = longest :=
    length_padded (Nat.le_trans (length_le_utf8ByteSize _) hLongest)
  have hHead : head width v = v.name ++ ":" ++
      (if IsWide width v.name v.value then "" else " " ++ v.value.text) := by
    have hColon : ":" ++ " " = ": " := rfl
    rw [head, isLong_eq, ← hColon]
    by_cases hWide : IsWide width v.name v.value
    · rw [if_pos hWide, if_pos (decide_eq_true hWide), String.append_empty]
    · rw [if_neg hWide, if_neg (by simpa using hWide)]
      simp only [String.append_assoc]
  refine ⟨start width longest v, longest - (head width v).length + 2, ?_, ?_, rfl⟩
  · -- two more spaces stand behind the head
    rw [start, padded, List.replicate_add, String.ofList_append, hHead]
    simp only [String.append_assoc]
    rfl
  · rw [start, String.length_append, String.length_append, hLength]
    show 2 + longest + 2 = longest + 4
    omega

theorem le_foldl_max (sizes : List Nat) (least : Nat) :
    least ≤ sizes.foldl max least ∧ ∀ size ∈ sizes, size ≤ sizes.foldl max least := by
  induction sizes generalizing least with
  | nil => exact ⟨Nat.le_refl _, fun _ hMem => by cases hMem⟩
  | cons first rest ih =>
      obtain ⟨hLeast, hRest⟩ := ih (max least first)
      rw [List.foldl_cons]
      refine ⟨by omega, List.forall_mem_cons.mpr ⟨by omega, hRest⟩⟩

theorem utf8ByteSize_head_le {ctx : Context} {v : Variable} (h : v ∈ ctx.entries) :
    (head ctx.width v).utf8ByteSize ≤ ctx.longest := by
  exact (le_foldl_max _ 0).2 _ (List.mem_map_of_mem h)

/-- The lines of a name are lines if its name is on one line, and the annotation is. -/
theorem forall_isLine_block_iff {width longest : Nat} {v : Variable} :
    (∀ line ∈ block width longest v, IsLine line) ↔ IsLine v.name ∧ IsLine v.origin.text := by
  have hText := v.value.isLine_text
  have hSpaces (count : Nat) : IsLine (String.ofList (List.replicate count ' ')) := by
    simp [IsLine]
  have hHead : IsLine (head width v) ↔ IsLine v.name := by
    have hColon : IsLine ":" ∧ IsLine ": " := ⟨by decide, by decide⟩
    unfold head
    split
    · rw [isLine_append, and_iff_left hColon.1]
    · rw [isLine_append, isLine_append, and_iff_left hText, and_iff_left hColon.2]
  have hStart : IsLine (start width longest v) ↔ IsLine v.name := by
    have hMargin : IsLine "  " := by decide
    rw [start, padded, isLine_append, isLine_append, isLine_append, hHead,
      and_iff_left (hSpaces _), and_iff_right hMargin, and_iff_left hMargin]
  have hContinuation : ∀ line ∈ continuation width v.name v.value, IsLine line := by
    unfold continuation
    split
    · simpa [isLine_append] using ⟨by decide, hText⟩
    · simp
  have hMark : IsLine "# " := by decide
  rw [block, List.forall_mem_cons, and_iff_left hContinuation, isLine_append, isLine_append,
    hStart, and_iff_left hMark]

/-- **The lines of a context** are those of its blocks, exactly if its names and annotations are on
one line each. -/
theorem linesIn_representation_iff {ctx : Context} (hSome : ctx.entries ≠ []) :
    linesIn ctx.representation =
        "Context:" :: (ctx.entries.map (block ctx.width ctx.longest)).flatten ↔
      ∀ v ∈ ctx.entries, IsLine v.name ∧ IsLine v.origin.text := by
  have hHeader : IsLine "Context:" := by decide
  rw [representation_eq hSome, linesIn_intercalate_iff (List.cons_ne_nil _ _),
    List.forall_mem_cons, and_iff_right hHeader, List.forall_mem_flatten, List.forall_mem_map]
  exact forall₂_congr fun v _ => forall_isLine_block_iff

end Context

/-! ## The contexts of a run -/

section

variable {cast : Cast β} {tree : StoryTree β} {plan : Plan β} {perform : β → Context → Reply}
  {calling : Calling} {width : Nat} {values : Bindings}

/-- Contexts are shown as wide as the run was told. -/
theorem Plan.width_at {done rest : List (Moment β)}
    (hPoint : plan.moments tree perform calling width values = done ++ rest) :
    ((plan.beginning width values).stateAfter done).ctx.width = width := by
  refine Run.moments_induction (P := fun _ r => r.ctx.width = width) ?_ ?_ hPoint
  · show (plan.initialContext width values).width = width
    rw [Plan.initialContext_eq]
  · intro done m hWidth _ hExecutes
    have hKept := Run.width_execute plan perform calling m.instruction m.before
    rw [hExecutes] at hKept
    exact hKept.trans hWidth

/-- The qualified names of the steps that set names of a context. -/
def Context.setters (ctx : Context) : List String :=
  ctx.entries.filterMap fun v => match v.origin with
    | .argument => none
    | .step qualified => some qualified

theorem Context.mem_setters_iff {ctx : Context} {step : String} :
    step ∈ ctx.setters ↔ ∃ v ∈ ctx.entries, v.origin = .step step := by
  rw [setters, List.mem_filterMap]
  refine exists_congr fun v => and_congr_right fun _ => ?_
  cases v.origin <;> simp

theorem Context.forall_isLine_setters_iff {ctx : Context} :
    (∀ step ∈ ctx.setters, IsLine step) ↔ ∀ v ∈ ctx.entries, IsLine v.origin.text := by
  constructor
  · intro h v hv
    rw [Origin.isLine_text_iff]
    exact fun step hOrigin => h step (mem_setters_iff.mpr ⟨v, hv, hOrigin⟩)
  · intro h step hStep
    obtain ⟨v, hv, hOrigin⟩ := mem_setters_iff.mp hStep
    exact Origin.isLine_text_iff.mp (h v hv) step hOrigin

/-- Names are set by steps of the moments so far. -/
theorem Mounts.setters_at (h : Mounts cast tree plan) {done rest : List (Moment β)}
    (hPoint : plan.moments tree perform calling width values = done ++ rest) :
    ∀ step ∈ ((plan.beginning width values).stateAfter done).ctx.setters,
      ∃ m ∈ done, ∃ s ∈ m.instruction.steps, step = s.qualified := by
  intro step hStep
  obtain ⟨v, hv, hOrigin⟩ := Context.mem_setters_iff.mp hStep
  obtain ⟨-, added, hAdded, hFrom⟩ := h.entries_at hPoint
  rw [hAdded] at hv
  rcases List.mem_append.mp hv with hInitial | hSet
  · rw [Plan.origin_initialContext hInitial] at hOrigin
    cases hOrigin
  · obtain ⟨m, hMem, -, s, given, hAnswers, hSetBy, -⟩ := hFrom v hSet
    rw [hSetBy] at hOrigin
    cases hOrigin
    exact ⟨m, hMem, s, hAnswers.1, rfl⟩

/-- The table of a context and its annotations, side by side. -/
theorem Context.zip_notes {ctx : Context} (h : ctx.names.Nodup) :
    ctx.table.entries.zip ctx.notes =
      ctx.entries.map fun v => ((v.name, v.value), v.origin.text) := by
  rw [Context.entries_table h, Context.notes, List.zip_map']

/-- What a context is shown as, name by name, in the order in which the names were set: values by
name and annotations are kept in two lists. No value adds or hides a line: there are other lines
only if a name is not on one line itself, be it of the context or of a step that set one. -/
structure Context.IsShownInOrder (ctx : Context) (width : Nat) : Prop where
  /-- There is an annotation for every name. -/
  length_eq : ctx.notes.length = ctx.table.names.length
  nothing : ctx.names = [] → ctx.representation = "Context()"
  something : ctx.names ≠ [] → ∃ column blocks,
    List.Forall₂ (fun shown lines => IsShown width column shown.1.1 shown.1.2 shown.2 lines)
        (ctx.table.entries.zip ctx.notes) blocks ∧
      ctx.representation = "\n".intercalate ("Context:" :: blocks.flatten) ∧
      (linesIn ctx.representation = "Context:" :: blocks.flatten ↔
        (∀ name ∈ ctx.names, IsLine name) ∧ ∀ step ∈ ctx.setters, IsLine step)

/-- The history is not part of what is shown. -/
theorem Context.IsShownInOrder.of_entries_eq {ctx ctx' : Context} (h : ctx.IsShownInOrder width)
    (hEntries : ctx'.entries = ctx.entries) (hWidth : ctx'.width = ctx.width) :
    ctx'.IsShownInOrder width := by
  have hNames : ctx'.names = ctx.names := congrArg (List.map Variable.name) hEntries
  have hTable : ctx'.table = ctx.table := by rw [Context.table, hEntries, Context.table]
  have hNotes : ctx'.notes = ctx.notes := by rw [Context.notes, hEntries, Context.notes]
  have hSetters : ctx'.setters = ctx.setters := by rw [Context.setters, hEntries, Context.setters]
  have hShown : ctx'.representation = ctx.representation := by
    rw [Context.representation, hEntries, hWidth, Context.representation]
  constructor
  · rw [hNotes, hTable]
    exact h.length_eq
  · rw [hNames, hShown]
    exact h.nothing
  · rw [hNames, hShown, hTable, hNotes, hSetters]
    exact h.something

/-- At every point of a run the context is shown in order. -/
theorem Mounts.isShownInOrder_at (h : Mounts cast tree plan) {done rest : List (Moment β)}
    (hPoint : plan.moments tree perform calling width values = done ++ rest) :
    ((plan.beginning width values).stateAfter done).ctx.IsShownInOrder width := by
  have hGrown := h.isGrown_at hPoint
  have hWidth := Plan.width_at hPoint
  generalize ((plan.beginning width values).stateAfter done).ctx = ctx at *
  refine ⟨hGrown.length_eq, fun hNone => ?_, fun hAny => ?_⟩
  · rw [Context.names, List.map_eq_nil_iff] at hNone
    rw [Context.representation, hNone]
  · have hSome : ctx.entries ≠ [] := fun hNone => hAny (congrArg (List.map Variable.name) hNone)
    refine ⟨ctx.longest + 4, _, ?_, Context.representation_eq hSome, ?_⟩
    · rw [Context.zip_notes hGrown.nodup, List.forall₂_map_left_iff, List.forall₂_map_right_iff,
        List.forall₂_same, ← hWidth]
      exact fun v hv => Context.isShown_block (Context.utf8ByteSize_head_le hv)
    · rw [Context.linesIn_representation_iff hSome, Context.forall_isLine_setters_iff,
        Context.names, List.forall_mem_map, forall₂_and]

/-- **How the contexts of a run are shown.** At every point of an invocation, at its end and in its
steps, a context without names is shown as such, and any other as a header and one block of lines
for each name. There are no other lines exactly if the names are on one line, those of the context
and those of the steps that set them, which are steps so far. -/
theorem Mounts.contexts_shown (h : Mounts cast tree plan) {arguments : Bindings}
    {invocation : Invocation}
    (hInvoke : plan.invoke perform calling width arguments = .ok invocation) :
    ∃ values, plan.root.checkCall arguments = .ok values ∧
      let moments := plan.moments tree perform calling width values
      let ctxAfter := fun done => ((plan.beginning width values).stateAfter done).ctx
      invocation.ctx = ctxAfter moments ∧
      ∀ done rest, moments = done ++ rest →
        (ctxAfter done).IsShownInOrder width ∧
        (∀ i : Instruction β, (i.seen (ctxAfter done)).IsShownInOrder width) ∧
        ∀ step ∈ (ctxAfter done).setters,
          ∃ m ∈ done, ∃ s ∈ m.instruction.steps, step = s.qualified := by
  obtain ⟨values, hAccepted, hCtx, -⟩ := h.invoke_eq_ok hInvoke
  refine ⟨values, hAccepted, hCtx, fun done rest hPoint => ?_⟩
  have hShown := h.isShownInOrder_at hPoint
  refine ⟨hShown, fun i => hShown.of_entries_eq (i.entries_seen _) ?_, h.setters_at hPoint⟩
  cases i <;> rfl

end

namespace Shop

def orally : Bindings := .ofList [("price", .string "fünf\nMark")]

/-- A price with a line break in it is shown on one line of its own. -/
theorem price_shown : ∃ invocation, plan.invoke answer .blocking 20 orally = .ok invocation ∧
    linesIn invocation.ctx.representation =
      ["Context:", "  price:    # Story argument", "    \"fünf\\nMark\"",
        "  total: 7  # Set by Shop.add"] ∧
    invocation.ctx.IsShownInOrder 20 ∧ ∀ step ∈ invocation.ctx.setters, IsLine step := by
  have hSale : ∃ invocation, plan.invoke answer .blocking 20 orally = .ok invocation ∧
      linesIn invocation.ctx.representation =
        ["Context:", "  price:    # Story argument", "    \"fünf\\nMark\"",
          "  total: 7  # Set by Shop.add"] := ⟨_, rfl, by decide +kernel⟩
  obtain ⟨invocation, hInvoke, hLines⟩ := hSale
  obtain ⟨values, -, hCtx, hPoints⟩ := Mounts.contexts_shown mounts hInvoke
  obtain ⟨hShown, -, hSetters⟩ := hPoints _ [] (List.append_nil _).symm
  rw [← hCtx] at hShown hSetters
  refine ⟨invocation, hInvoke, hLines, hShown, fun step hStep => ?_⟩
  have hScored : ∀ scored ∈ tree.score plan.failures.isSome, ∀ s ∈ scored.2.steps,
      IsLine s.qualified := by
    decide +kernel
  obtain ⟨m, hMem, s, hs, rfl⟩ := hSetters step hStep
  obtain ⟨done, later, hPoint⟩ := List.append_of_mem hMem
  exact hScored _ (Run.moment_executes hPoint).1 s hs

end Shop

/-! ## A step whose name has a line break

A press sets the pages of a book in a step with a name of two lines. -/

namespace Press

open Shop (Body answer)

def book : Story where
  name := ⟨"Press", "print"⟩
  arguments := []
  collected := [.step "type"]
  spec := none
  failures := none

def type : Step Body where
  name := "set\ntype"
  owner := "Press"
  mode := .function
  body := .ok (.success (.ofList [("pages", .nat 2)]))

def cast : Cast Body :=
  .ofList [("press", { className := "Press", members := .ofList [("type", .step type)] })]

def plan : Plan Body := (Plan.compile cast book "press").toOption.get rfl

/-- The only name is on one line, and so is its value, which is short enough. Yet there are three
lines in place of a header and a head line. -/
theorem pages_in_two_lines :
    Mounts cast ⟨book, "press", .step type .done⟩ plan ∧
      ∃ invocation, plan.invoke answer .blocking 88 .empty = .ok invocation ∧
        (∀ name ∈ invocation.ctx.names, IsLine name) ∧
        linesIn invocation.ctx.representation =
          ["Context:", "  pages: 2  # Set by Press.set", "type"] ∧
        ¬ ∃ column blocks,
          List.Forall₂
            (fun shown lines => Context.IsShown 88 column shown.1.1 shown.1.2 shown.2 lines)
            (invocation.ctx.table.entries.zip invocation.ctx.notes) blocks ∧
          linesIn invocation.ctx.representation = "Context:" :: blocks.flatten := by
  have hPrinted : ∃ invocation, plan.invoke answer .blocking 88 .empty = .ok invocation ∧
      invocation.ctx.names = ["pages"] ∧
      linesIn invocation.ctx.representation =
        ["Context:", "  pages: 2  # Set by Press.set", "type"] ∧
      invocation.ctx.table.entries.zip invocation.ctx.notes =
        [(("pages", .nat 2), "Set by Press.set\ntype")] :=
    ⟨_, rfl, rfl, by decide +kernel, rfl⟩
  obtain ⟨invocation, hInvoke, hNames, hLines, hTable⟩ := hPrinted
  refine ⟨⟨rfl, .step .done⟩, invocation, hInvoke, ?_, hLines, ?_⟩
  · rw [hNames]
    decide
  · rintro ⟨column, blocks, hBlocks, hShown⟩
    rw [hTable, List.forall₂_cons_left_iff] at hBlocks
    obtain ⟨block, rest, ⟨start, spaces, -, -, rfl⟩, hRest, rfl⟩ := hBlocks
    rw [List.forall₂_nil_left_iff] at hRest
    -- the value fits into the head line
    have hShort : Context.continuation 88 "pages" (.nat 2) = [] := if_neg (by decide +kernel)
    rw [hLines, hRest, hShort] at hShown
    have hLength := congrArg List.length hShown
    cases hLength

end Press

end Storyline
