import Storyline.Proofs.Growth
import Storyline.Proofs.Sources

/-!
# Every value of a context was validated

In a composition with schemas no value enters the context as it was given: at every point of a
run, each name is an argument that was accepted with the call, or was set by a step whose values
were accepted (`Variable.IsValidated`, `Mounts.validated`). The root contract accepts arguments,
and the contract of a story what the steps of the story set.
-/

set_option autoImplicit false

namespace Storyline

variable {β : Type}

/-- What made a variable of the context valid, after some moments of a run: it is an argument that
the root contract accepted, or a moment brought it whose step may set it, by the contract of its
story. -/
inductive Variable.IsValidated (v : Variable) (tree : StoryTree β) (plan : Plan β)
    (perform : β → Context → Reply) (calling : Calling) (arguments : Bindings)
    (done : List (Moment β)) : Prop where
  | argument {raw : Json} {story : Story} :
      v.origin = .argument → (v.name, raw) ∈ arguments.entries →
      story ∈ tree.stories → v.name ∈ story.arguments →
      plan.root.Accepts v.name raw v.value →
      v.IsValidated tree plan perform calling arguments done
  | step {m : Moment β} {s : Step β} {given : Bindings} {raw : Json} {number : Nat}
      {c : Contract} :
      m ∈ done → m.Brings v →
      m.instruction.Answers perform calling m.before.ctx s (.success given) →
      v.origin = .step s.qualified → (v.name, raw) ∈ given.entries →
      (m.story.DeclaresVariable v.name ∨ ∃ story ∈ tree.stories, v.name ∈ story.arguments) →
      m.instruction.number? = some number → plan.contracts[number]? = some c →
      c.IsOf m.story → c.Accepts v.name raw v.value →
      v.IsValidated tree plan perform calling arguments done

/-- Each value that is kept was judged, as it was given under its name. -/
theorem Contract.exists_judged {c : Contract} {given kept : List (String × Json)}
    (h : List.Forall₂ c.Judged given kept) {name : String} {value : Json}
    (hKept : (name, value) ∈ kept) :
    ∃ raw, (name, raw) ∈ given ∧ c.Judged (name, raw) (name, value) := by
  induction h with
  | nil => cases hKept
  | @cons first second _ _ hFirst _ ih =>
      rcases List.mem_cons.mp hKept with rfl | hKept
      · obtain ⟨other, raw⟩ := first
        obtain rfl : name = other := hFirst.name_eq
        exact ⟨raw, List.mem_cons_self, hFirst⟩
      · obtain ⟨raw, hRaw, hJudged⟩ := ih hKept
        exact ⟨raw, List.mem_cons_of_mem _ hRaw, hJudged⟩

section

variable {cast : Cast β} {tree : StoryTree β} {plan : Plan β} {perform : β → Context → Reply}
  {calling : Calling} {width : Nat} {arguments values : Bindings} {done : List (Moment β)}

/-- The stories of a tree with a schema all have one. -/
theorem Mounts.schemas (h : Mounts cast tree plan)
    (hSchema : tree.definition.spec.isSome = true) :
    ∀ story ∈ tree.stories, story.spec.isSome = true :=
  fun _ hStory => (h.isSome_spec hStory).trans hSchema

/-- The arguments that a run begins with are validated. -/
theorem Mounts.validated_argument (h : Mounts cast tree plan)
    (hSchema : tree.definition.spec.isSome = true)
    (hAccepted : plan.root.checkCall arguments = .ok values) {v : Variable}
    (hv : v ∈ (plan.initialContext width values).entries) :
    v.IsValidated tree plan perform calling arguments done := by
  have hRootSound := h.sound (List.mem_cons_self : plan.root ∈ plan.contracts)
  obtain ⟨hRootOf, -⟩ := List.forall₂_cons.mp h.contracts_of
  have hNotNull : plan.root.isNull = false := hRootOf.isNull_eq_false_iff.mpr hSchema
  -- a variable of the context is the value that was kept of an argument
  obtain ⟨-, hJudged⟩ := Contract.checkCall_eq_ok hAccepted
  rw [Plan.entries_initialContext] at hv
  obtain ⟨name, hName, hArgument⟩ := List.mem_filterMap.mp hv
  obtain ⟨value, hValue, rfl⟩ := Option.map_eq_some_iff.mp hArgument
  obtain ⟨raw, hRaw, hOne⟩ :=
    Contract.exists_judged (hJudged hNotNull) (mem_of_lookup_eq_some hValue)
  obtain ⟨story, hStory, hDeclares⟩ := hRootSound.exists_declares hName
  exact .argument rfl hRaw hStory hDeclares
    (hRootSound.accepts (h.schemas hSchema) hOne (.inr hName))

/-- What a moment of a run brings is validated. -/
theorem Mounts.validated_step (h : Mounts cast tree plan)
    (hSchema : tree.definition.spec.isSome = true) {isShut : Bool} {m : Moment β}
    (hMem : (m.story, m.instruction) ∈ tree.score isShut) (hDone : m ∈ done) {v : Variable}
    (hBrings : m.Brings v) (hSets : m.Sets plan perform calling v) :
    v.IsValidated tree plan perform calling arguments done := by
  obtain ⟨s, given, hAnswers, hOrigin, number, c, hNumber, hContract, seen, kept, hCheck, hKept⟩ :=
    hSets
  obtain ⟨c', hContract', hOf⟩ := h.exists_contract hMem hNumber
  obtain rfl : c = c' := Option.some.inj (hContract.symm.trans hContract')
  have hSound := h.sound (List.mem_of_getElem? hContract)
  have hStory := (StoryTree.belongsTo_of_mem_score hMem).mem
  have hNotNull : c.isNull = false :=
    hOf.isNull_eq_false_iff.mpr (h.schemas hSchema m.story hStory)
  obtain ⟨-, -, hAdmitted⟩ := Contract.checkOutput_eq_ok hCheck
  obtain ⟨hNames, hJudged⟩ := hAdmitted hNotNull
  obtain ⟨raw, hRaw, hOne⟩ := Contract.exists_judged hJudged hKept
  have hAdmits := hNames v.name (List.mem_map_of_mem hRaw)
  rw [Contract.admits, Bool.or_eq_true, Catalog.contains_iff, Catalog.contains_iff] at hAdmits
  refine .step hDone hBrings hAnswers hOrigin hRaw ?_ hNumber hContract hOf
    (hSound.accepts (h.schemas hSchema) hOne hAdmits)
  -- the contract admits own variables and arguments of any story
  rcases hAdmits with hOwn | hArgument
  · exact .inl (hOf.declaresVariable hOwn)
  · exact .inr (hSound.exists_declares hArgument)

/-- At every point of a run all that is in the context is validated. -/
theorem Mounts.validated_at (h : Mounts cast tree plan)
    (hSchema : tree.definition.spec.isSome = true)
    (hAccepted : plan.root.checkCall arguments = .ok values) {rest : List (Moment β)}
    (hPoint : plan.moments tree perform calling width values = done ++ rest) {v : Variable}
    (hv : v ∈ ((plan.beginning width values).stateAfter done).ctx.entries) :
    v.IsValidated tree plan perform calling arguments done := by
  obtain ⟨-, added, hAdded, hFrom⟩ := h.entries_at hPoint
  rw [hAdded] at hv
  rcases List.mem_append.mp hv with hInitial | hNew
  · exact h.validated_argument hSchema hAccepted hInitial
  · obtain ⟨m, hDone, hBrings, hSets⟩ := hFrom v hNew
    -- at an earlier point the moment that brought it was the next
    obtain ⟨before, after, hSplit⟩ := List.append_of_mem hDone
    rw [hSplit, List.append_assoc, List.cons_append] at hPoint
    exact h.validated_step hSchema (Run.moment_executes hPoint).1 hDone hBrings hSets

/-- **No value that was not validated is ever in the context**, at any point of an invocation, nor
seen by the steps of the instruction that comes next. -/
theorem Mounts.validated (h : Mounts cast tree plan)
    (hSchema : tree.definition.spec.isSome = true) {invocation : Invocation}
    (hInvoke : plan.invoke perform calling width arguments = .ok invocation) :
    ∃ values, plan.root.checkCall arguments = .ok values ∧
      let moments := plan.moments tree perform calling width values
      let ctxAfter := fun done => ((plan.beginning width values).stateAfter done).ctx
      invocation.ctx = ctxAfter moments ∧
      ∀ done rest, moments = done ++ rest →
        (∀ v ∈ (ctxAfter done).entries,
          v.IsValidated tree plan perform calling arguments done) ∧
        ∀ m later, rest = m :: later → ∀ v ∈ (m.instruction.seen m.before.ctx).entries,
          v.IsValidated tree plan perform calling arguments done := by
  obtain ⟨values, hAccepted, hCtx, -⟩ := h.invoke_eq_ok hInvoke
  refine ⟨values, hAccepted, hCtx, fun done rest hPoint => ⟨fun v hv => ?_, ?_⟩⟩
  · exact h.validated_at hSchema hAccepted hPoint hv
  · rintro m later rfl v hv
    rw [Instruction.entries_seen, (Run.moment_executes hPoint).2.2] at hv
    exact h.validated_at hSchema hAccepted hPoint hv

end

/-- At the end of a sale the price and the total are validated. -/
theorem Shop.validated_sale : ∃ invocation,
    plan.invoke answer .blocking 80 arguments = .ok invocation ∧
      invocation.ctx.names = ["price", "total"] ∧
      ∃ done, ∀ v ∈ invocation.ctx.entries,
        v.IsValidated tree plan answer .blocking arguments done := by
  have hSale : ∃ invocation, plan.invoke answer .blocking 80 arguments = .ok invocation ∧
      invocation.ctx.names = ["price", "total"] := ⟨_, rfl, rfl⟩
  obtain ⟨invocation, hInvoke, hNames⟩ := hSale
  obtain ⟨values, -, hCtx, hPoints⟩ := Mounts.validated mounts rfl hInvoke
  obtain ⟨hValidated, -⟩ := hPoints _ [] (List.append_nil _).symm
  exact ⟨invocation, hInvoke, hNames, _, hCtx ▸ hValidated⟩

end Storyline
