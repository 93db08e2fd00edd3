import Storyline.Proofs.Composition
import Storyline.Proofs.Numbering

/-!
# Combining vocabularies is a join

Combining leaves a vocabulary as it is when the other one is none or the same again, unites the
reasons of both, and goes wrong only between tokens and members. It is also associative, values and
order included: members that are new are numbered on from the largest value, one after the other,
so that it makes no difference whether those of two substories come one by one or were joined before
(`Named.foldl_addMember`). All this supposes that there is room for the numbers.

The vocabulary of a composition is therefore that of its stories in the order in which they start
(`Scenes.vocabulary?_eq`), however they are grouped into substories.
-/

set_option autoImplicit false

namespace Storyline

variable {β : Type}

/-! ## Vocabularies -/

/-- An enumeration with some members more, unless they are there. -/
def Enumeration.adding (e : Enumeration) (names : List String) : Enumeration :=
  { e with members := names.foldl Named.addMember e.members }

theorem Enumeration.adding_adding (e f : Enumeration) (names : List String) :
    e.adding (f.adding names).members.names = (e.adding f.members.names).adding names :=
  congrArg (fun members => { e with members }) (e.members.foldl_addMember f.members names)

namespace Failures

variable {a b c joined : Option Failures} {count : Nat}

/-- The members of a vocabulary with their values; tokens are none. -/
def members : Option Failures → List (String × Int64)
  | some (.enumeration e) => e.members.entries
  | _ => []

/-- The number of members of a vocabulary. -/
def memberCount (vocabulary : Option Failures) : Nat := (members vocabulary).length

/-- There is room in a vocabulary for some members more. -/
def HasRoom (vocabulary : Option Failures) (count : Nat) : Prop :=
  ∀ value ∈ 0 :: (members vocabulary).map Prod.snd,
    value.toInt + count < Int64.maxValue.toInt

/-- One of two vocabularies has tokens, and the other one members. -/
def AreMixed (a b : Option Failures) : Prop :=
  ∃ list e, (a = some (.tokens list) ∧ b = some (.enumeration e)) ∨
    (a = some (.enumeration e) ∧ b = some (.tokens list))

/-- Combining is joining; who combines is named in the error only. -/
theorem combine_eq_ok_iff {story substory : String} :
    combine story a substory b = .ok joined ↔ join? a b = some joined := by
  cases a with
  | none => simp [combine, join?]
  | some ours =>
      cases b with
      | none => simp [combine, join?]
      | some theirs =>
          simp only [combine]
          cases join? (some ours) (some theirs) <;> simp

theorem toOption_combine (story substory : String) (a b : Option Failures) :
    (combine story a substory b).toOption = join? a b := by
  cases hCombine : combine story a substory b with
  | ok joined => rw [combine_eq_ok_iff.mp hCombine, Except.toOption]
  | error cause =>
      cases hJoin : join? a b with
      | none => rfl
      | some joined => cases hCombine.symm.trans (combine_eq_ok_iff.mpr hJoin)

theorem join?_none_left (a : Option Failures) : join? none a = some a := by
  cases a <;> rfl

theorem join?_none_right (a : Option Failures) : join? a none = some a := by
  cases a <;> rfl

theorem join?_eq_none_iff : join? a b = none ↔ AreMixed a b := by
  unfold AreMixed
  rcases a with _ | ⟨list⟩ | ⟨e⟩ <;> rcases b with _ | ⟨list'⟩ | ⟨e'⟩ <;> simp [join?]

/-- The join of two enumerations, as long as there is room for the members of the second. -/
theorem join?_enumeration {ours theirs : Enumeration}
    (h : ours.members.HasRoom theirs.members.size) :
    join? (some (.enumeration ours)) (some (.enumeration theirs)) =
      some (some (.enumeration (ours.adding theirs.members.names))) := by
  have hMembers := Named.addMembers_eq h
  rw [Named.values] at hMembers
  rw [join?, hMembers]
  rfl

/-- Members that are there already are not numbered again. -/
theorem addMembers_of_mem {ours : Named Int64} {others : List (String × Int64)} (next : Int64)
    (h : ∀ entry ∈ others, entry.1 ∈ ours.names) : addMembers ours next others = ours := by
  induction others with
  | nil => rfl
  | cons first rest ih =>
      obtain ⟨name, value⟩ := first
      have hName : name ∈ ours.names := h _ List.mem_cons_self
      rw [addMembers, if_pos ((ours.contains_iff name).mpr hName)]
      exact ih fun entry hEntry => h entry (List.mem_cons_of_mem _ hEntry)

theorem join?_self (a : Option Failures) : join? a a = some a := by
  rcases a with _ | ⟨list⟩ | ⟨e⟩
  · rfl
  · rw [join?, addTokens_self]
  · rw [join?, addMembers_of_mem _ fun _ hEntry => List.mem_map_of_mem hEntry]

theorem HasRoom.mono {more : Nat} (h : HasRoom a more) (hLess : count ≤ more) :
    HasRoom a count := by
  intro value hValue
  have hRoom := h value hValue
  omega

/-- A join has no more members than both sides have, and room for what there was room for beside
the second side. -/
theorem join?_bounds (hJoin : join? a b = some joined) (h : HasRoom a (memberCount b + count))
    (hOther : HasRoom b count) :
    memberCount joined ≤ memberCount a + memberCount b ∧ HasRoom joined count := by
  rcases a with _ | ⟨list⟩ | ⟨e⟩
  · rw [join?_none_left] at hJoin
    obtain rfl := Option.some.inj hJoin
    exact ⟨Nat.le_add_left _ _, hOther⟩
  · have hLess := h.mono (Nat.le_add_left count _)
    rcases b with _ | ⟨list'⟩ | ⟨e'⟩
    · obtain rfl := Option.some.inj hJoin
      exact ⟨Nat.le_add_right _ _, hLess⟩
    · obtain rfl := Option.some.inj hJoin
      exact ⟨Nat.zero_le _, hLess⟩
    · cases hJoin
  · rcases b with _ | ⟨list'⟩ | ⟨e'⟩
    · obtain rfl := Option.some.inj hJoin
      exact ⟨Nat.le_add_right _ _, h.mono (Nat.le_add_left count _)⟩
    · cases hJoin
    · have hLess : e.members.HasRoom e'.members.size := h.mono (Nat.le_add_right _ count)
      have hRoom : e.members.HasRoom (e'.members.names.length + count) := by
        rw [Named.length_names]
        exact h
      rw [join?_enumeration hLess] at hJoin
      obtain rfl := Option.some.inj hJoin
      refine ⟨?_, hRoom.foldl_addMember⟩
      have hSize := e.members.size_foldl_addMember_le e'.members.names
      rw [Named.length_names] at hSize
      exact hSize

/-- **Joining vocabularies is associative**, with all values and the order of members, and so is
failing to join. -/
theorem join?_assoc (h : HasRoom a (memberCount b + memberCount c))
    (hOther : HasRoom b (memberCount c)) :
    (join? a b).bind (join? · c) = (join? b c).bind (join? a) := by
  rcases a with _ | ours
  · have hNone : join? none = some := funext join?_none_left
    rw [hNone, Option.bind_some, Option.bind_fun_some]
  rcases b with _ | theirs
  · rw [join?_none_right, join?_none_left, Option.bind_some, Option.bind_some]
  rcases c with _ | others
  · rw [join?_none_right, Option.bind_some]
    simp only [join?_none_right, Option.bind_fun_some]
  cases ours with
  | tokens x =>
      cases theirs with
      | tokens y =>
          cases others with
          | tokens z => simp only [join?, Option.bind_some, addTokens_assoc]
          | enumeration g => rfl
      | enumeration f => cases others <;> rfl
  | enumeration e =>
      cases theirs with
      | tokens y => cases others <;> rfl
      | enumeration f =>
          cases others with
          | tokens z => rfl
          | enumeration g =>
              have hRoom : e.members.HasRoom (f.members.size + g.members.size) := h
              -- there is room on either way
              have hFirst : (e.adding f.members.names).members.HasRoom g.members.size :=
                Named.HasRoom.foldl_addMember (by rwa [Named.length_names])
              have hSecond : e.members.HasRoom (f.adding g.members.names).members.size := by
                have hSize := f.members.size_foldl_addMember_le g.members.names
                rw [Named.length_names] at hSize
                exact hRoom.mono hSize
              rw [join?_enumeration (hRoom.mono (Nat.le_add_right _ _)), join?_enumeration hOther,
                Option.bind_some, Option.bind_some, join?_enumeration hFirst,
                join?_enumeration hSecond, Enumeration.adding_adding]

/-! ## Joining many vocabularies -/

/-- A vocabulary joined with others, one after the other. -/
def joinAll (ours : Option Failures) : List (Option Failures) → Option (Option Failures)
  | [] => some ours
  | theirs :: rest => (join? ours theirs).bind (joinAll · rest)

/-- The number of all members of some vocabularies. -/
def totalCount (vocabularies : List (Option Failures)) : Nat :=
  (vocabularies.flatMap members).length

/-- In each vocabulary there is room for the members of all that come after it. -/
def Fit : List (Option Failures) → Prop
  | [] => True
  | first :: rest => HasRoom first (totalCount rest) ∧ Fit rest

/-- The largest value of the members of some vocabularies, or zero, and the number of all members
together stay below the largest number of 64 bits. -/
def AreRoomy (vocabularies : List (Option Failures)) : Prop :=
  ∀ value ∈ 0 :: vocabularies.flatMap fun vocabulary => (members vocabulary).map Prod.snd,
    value.toInt + totalCount vocabularies < Int64.maxValue.toInt

instance (vocabularies : List (Option Failures)) : Decidable (AreRoomy vocabularies) :=
  List.decidableBAll
    (fun value : Int64 => value.toInt + totalCount vocabularies < Int64.maxValue.toInt) _

theorem totalCount_cons (first : Option Failures) (rest : List (Option Failures)) :
    totalCount (first :: rest) = memberCount first + totalCount rest := by
  rw [totalCount, List.flatMap_cons, List.length_append, memberCount, totalCount]

theorem totalCount_append (xs ys : List (Option Failures)) :
    totalCount (xs ++ ys) = totalCount xs + totalCount ys := by
  rw [totalCount, List.flatMap_append, List.length_append, totalCount, totalCount]

/-- Vocabularies with room for all their members fit. -/
theorem AreRoomy.fit {vocabularies : List (Option Failures)} (h : AreRoomy vocabularies) :
    Fit vocabularies := by
  induction vocabularies with
  | nil => trivial
  | cons first rest ih =>
      rw [AreRoomy, totalCount_cons, List.flatMap_cons] at h
      refine ⟨fun value hValue => ?_, ih fun value hValue => ?_⟩
      · have hIn : value ∈ 0 :: ((members first).map Prod.snd ++
            rest.flatMap fun vocabulary => (members vocabulary).map Prod.snd) := by
          rw [← List.cons_append]
          exact List.mem_append_left _ hValue
        have hRoom := h value hIn
        omega
      · have hIn : value ∈ 0 :: ((members first).map Prod.snd ++
            rest.flatMap fun vocabulary => (members vocabulary).map Prod.snd) := by
          rcases List.mem_cons.mp hValue with rfl | hRest
          · exact List.mem_cons_self
          · exact List.mem_cons_of_mem _ (List.mem_append_right _ hRest)
        have hRoom := h value hIn
        omega

theorem Fit.of_append {vocabularies others : List (Option Failures)}
    (h : Fit (vocabularies ++ others)) : Fit vocabularies := by
  induction vocabularies with
  | nil => trivial
  | cons first rest ih =>
      obtain ⟨hRoom, hRest⟩ := h
      have hFirst : HasRoom first (totalCount rest + totalCount others) := by
        rw [← totalCount_append]
        exact hRoom
      exact ⟨hFirst.mono (Nat.le_add_right _ _), ih hRest⟩

/-- A join fits in the place of the two vocabularies it is made of. -/
theorem Fit.join {rest : List (Option Failures)} (h : Fit (a :: b :: rest))
    (hJoin : join? a b = some joined) : Fit (joined :: rest) := by
  obtain ⟨hFirst, hSecond, hRest⟩ := h
  rw [totalCount_cons] at hFirst
  exact ⟨(join?_bounds hJoin hFirst hSecond).2, hRest⟩

theorem Fit.joinAll {rest others : List (Option Failures)} (h : Fit (a :: (rest ++ others)))
    (hJoin : joinAll a rest = some joined) : Fit (joined :: others) := by
  induction rest generalizing a with
  | nil =>
      obtain rfl := Option.some.inj hJoin
      exact h
  | cons first rest ih =>
      obtain ⟨both, hBoth, hRest⟩ := Option.bind_eq_some_iff.mp hJoin
      exact ih (h.join hBoth) hRest

theorem joinAll_append (a : Option Failures) (xs ys : List (Option Failures)) :
    joinAll a (xs ++ ys) = (joinAll a xs).bind (joinAll · ys) := by
  induction xs generalizing a with
  | nil => rfl
  | cons first rest ih =>
      rw [List.cons_append, joinAll, joinAll, Option.bind_assoc]
      exact congrArg (join? a first).bind (funext fun both => ih both)

/-- Vocabularies can be joined among themselves before they are joined to another. -/
theorem joinAll_cons_eq {rest : List (Option Failures)} (h : Fit (a :: b :: rest)) :
    joinAll a (b :: rest) = (joinAll b rest).bind (join? a) := by
  induction rest generalizing b with
  | nil =>
      show (join? a b).bind some = (some b).bind (join? a)
      rw [Option.bind_fun_some, Option.bind_some]
  | cons c rest ih =>
      obtain ⟨hFirst, hSecond, hThird, hRest⟩ := h
      rw [totalCount_cons, totalCount_cons] at hFirst
      rw [totalCount_cons] at hSecond
      have hAssoc : (join? a b).bind (join? · c) = (join? b c).bind (join? a) :=
        join?_assoc (hFirst.mono (by omega)) (hSecond.mono (Nat.le_add_right _ _))
      calc joinAll a (b :: c :: rest)
          = ((join? a b).bind (join? · c)).bind (joinAll · rest) := by
            rw [Option.bind_assoc]
            rfl
        _ = (join? b c).bind fun both => joinAll a (both :: rest) := by
            rw [hAssoc, Option.bind_assoc]
            rfl
        _ = (join? b c).bind fun both => (joinAll both rest).bind (join? a) := by
            cases hBoth : join? b c with
            | none => rfl
            | some both =>
                obtain ⟨hLess, hRoom⟩ := join?_bounds hBoth hSecond hThird
                exact ih ⟨hFirst.mono (by rw [totalCount_cons]; omega), hRoom, hRest⟩
        _ = (joinAll b (c :: rest)).bind (join? a) := by
            rw [joinAll, Option.bind_assoc]

end Failures

/-! ## The vocabulary of a tree -/

/-- The vocabulary that scenes come to after some vocabulary, if it can be composed: each substory
composes its own first, which is then combined. -/
def Scenes.vocabulary? : Scenes β → Option Failures → Option (Option Failures)
  | .done, ours => some ours
  | .step _ rest, ours => rest.vocabulary? ours
  | .parallel _ rest, ours => rest.vocabulary? ours
  | .story _ definition _ inner rest, ours =>
    (inner.vocabulary? definition.failures).bind fun theirs =>
      (Failures.join? ours theirs).bind rest.vocabulary?

/-- The vocabulary that a tree is composed to, if it can be composed. -/
def StoryTree.vocabulary? (tree : StoryTree β) : Option (Option Failures) :=
  tree.scenes.vocabulary? tree.definition.failures

/-- What each story of a tree declares, in the order in which they start. -/
def StoryTree.vocabularies (tree : StoryTree β) : List (Option Failures) :=
  tree.stories.map Story.failures

/-- A draft that gathers scenes gets their vocabulary. -/
theorem Draft.Gathers.vocabulary?_eq {scenes : Scenes β} {d d' : Draft β}
    (h : d.Gathers scenes d') : scenes.vocabulary? d.failures = some d'.failures := by
  induction h with
  | done => rfl
  | step _ ih => exact ih
  | parallel _ ih => exact ih
  | story hStart _ _ hCombine _ ihInner ih =>
      obtain ⟨alone, -, rfl⟩ := start_eq_ok hStart
      rw [Scenes.vocabulary?, ihInner, Option.bind_some, Failures.combine_eq_ok_iff.mp hCombine]
      exact ih

/-- The vocabulary of a plan is the one that its tree is composed to. -/
theorem Mounts.vocabulary?_eq {cast : Cast β} {tree : StoryTree β} {plan : Plan β}
    (h : Mounts cast tree plan) : tree.vocabulary? = some plan.failures := by
  obtain ⟨d₀, d, hStart, hGathers, rfl⟩ := h.gathered
  obtain ⟨alone, -, rfl⟩ := Draft.start_eq_ok hStart
  exact hGathers.vocabulary?_eq

/-- **Scenes come to the vocabularies of their stories**, joined one after the other. -/
theorem Scenes.vocabulary?_eq (scenes : Scenes β) (ours : Option Failures)
    (h : Failures.Fit (ours :: scenes.stories.map Story.failures)) :
    scenes.vocabulary? ours = Failures.joinAll ours (scenes.stories.map Story.failures) := by
  induction scenes generalizing ours with
  | done => rfl
  | step _ _ ih => exact ih ours h
  | parallel _ _ ih => exact ih ours h
  | story name definition owner inner rest ihInner ih =>
      rw [stories, List.map_cons, List.map_append] at h ⊢
      set within := inner.stories.map Story.failures
      set behind := rest.stories.map Story.failures
      have hAll : Failures.Fit (ours :: ((definition.failures :: within) ++ behind)) := h
      -- the substory and what is in it fit on their own
      have hWithin : Failures.Fit (ours :: definition.failures :: within) := by
        rw [← List.cons_append] at hAll
        exact hAll.of_append
      rw [vocabulary?, ihInner definition.failures hWithin.2, ← List.cons_append,
        Failures.joinAll_append, Failures.joinAll_cons_eq hWithin, Option.bind_assoc]
      cases hInner : Failures.joinAll definition.failures within with
      | none => rfl
      | some theirs =>
          rw [Option.bind_some, Option.bind_some]
          cases hJoin : Failures.join? ours theirs with
          | none => rfl
          | some joined =>
              refine ih joined (hAll.joinAll ?_)
              rw [Failures.joinAll_cons_eq hWithin, hInner]
              exact hJoin

/-! ## The laws of combining -/

/-- **Combining vocabularies is a join.** None is neutral on either side, and so is the same
vocabulary again; only tokens and members do not combine; a reason belongs to what is combined when
it belongs to one of the two. As long as there is room for the numbers of members, three
vocabularies come to the same in either grouping, and so do all vocabularies of a tree: it makes no
difference to the vocabulary of a plan how its stories are grouped. -/
theorem Failures.combine_isJoin :
    (∀ (story substory : String) (a : Option Failures),
      combine story none substory a = .ok a ∧ combine story a substory none = .ok a ∧
        combine story a substory a = .ok a) ∧
    (∀ (story substory : String) (a b : Option Failures),
      (∃ cause, combine story a substory b = .error cause) ↔ AreMixed a b) ∧
    (∀ (story substory : String) (a b joined : Option Failures),
      combine story a substory b = .ok joined → ∀ r, has joined r ↔ has a r ∨ has b r) ∧
    (∀ (first second third : String) (a b c : Option Failures), AreRoomy [a, b, c] →
      (combine first a second b).toOption.bind
          (fun both => (combine first both third c).toOption) =
        (combine second b third c).toOption.bind
          fun both => (combine first a second both).toOption) ∧
    ∀ (tree tree' : StoryTree β), tree'.vocabularies = tree.vocabularies →
      AreRoomy tree.vocabularies →
      tree'.vocabulary? = tree.vocabulary? ∧
        ∀ (cast cast' : Cast β) (plan plan' : Plan β), Mounts cast tree plan →
          Mounts cast' tree' plan' →
          tree.vocabulary? = some plan.failures ∧ plan'.failures = plan.failures := by
  refine ⟨fun story substory a => ?neutral, fun story substory a b => ?mixed,
    fun story substory a b joined h => ?reasons, fun first second third a b c h => ?grouping,
    fun tree tree' hSame h => ?trees⟩
  case neutral =>
    simp only [combine_eq_ok_iff]
    exact ⟨join?_none_left a, join?_none_right a, join?_self a⟩
  case mixed =>
    rw [← join?_eq_none_iff, ← toOption_combine story substory]
    cases combine story a substory b with
    | error cause => simp [Except.toOption]
    | ok joined => simp [Except.toOption]
  case reasons => exact has_combine h
  case grouping =>
    obtain ⟨hFirst, hSecond, -⟩ := h.fit
    have hThird : totalCount [c] = memberCount c := by simp [totalCount, memberCount]
    rw [totalCount_cons, hThird] at hFirst
    rw [hThird] at hSecond
    simp only [toOption_combine]
    exact join?_assoc hFirst hSecond
  case trees =>
    have hFit : Fit tree.vocabularies := h.fit
    have hFit' : Fit tree'.vocabularies := by
      rw [hSame]
      exact hFit
    have hTree := tree.scenes.vocabulary?_eq tree.definition.failures hFit
    have hTree' := tree'.scenes.vocabulary?_eq tree'.definition.failures hFit'
    -- both come to the vocabularies of their stories, which are the same
    obtain ⟨hFirst, hRest⟩ := List.cons.inj hSame
    have hEqual : tree'.vocabulary? = tree.vocabulary? := by
      rw [StoryTree.vocabulary?, StoryTree.vocabulary?, hTree, hTree', hFirst, hRest]
    refine ⟨hEqual, fun cast cast' plan plan' hMounts hMounts' => ?_⟩
    have hPlan := hMounts.vocabulary?_eq
    have hPlan' := hMounts'.vocabulary?_eq
    rw [hEqual, hPlan] at hPlan'
    exact ⟨hPlan, (Option.some.inj hPlan').symm⟩

namespace Crossing

abbrev Body := Except StepError Outcome

def signals (members : List (String × Int64)) : Option Failures :=
  some (.enumeration ⟨"Signals", .ofList members⟩)

/-- A story with some signals. -/
def story (name : String) (collected : List Collected) (members : List (String × Int64)) :
    Story where
  name := ⟨"Street", name⟩
  arguments := []
  collected
  spec := none
  failures := signals members

def go : Step Body where
  name := "go"
  owner := "Street"
  mode := .function
  body := .ok (.result .null)

def walk : Story := story "walk" [.step "go"] [("walk", 1), ("run", 2)]

def wait : Story := story "wait" [.step "go"] [("wait", 2), ("walk", 7)]

/-- The story of those who wait, with that of those who walk within it. -/
def line : Story := story "wait" [.step "go", .step "walk"] [("wait", 2), ("walk", 7)]

def cross (collected : List Collected) : Story := story "cross" collected [("stop", 1), ("wait", 5)]

def cast : Cast Body :=
  .ofList [("street", { className := "Street", members := .ofList [("go", .step go),
    ("wait", .story (.ok wait) "street"), ("walk", .story (.ok walk) "street"),
    ("line", .story (.ok line) "street")] })]

def nested : StoryTree Body :=
  ⟨cross [.step "line"], "street",
    .story "line" line "street"
      (.step go (.story "walk" walk "street" (.step go .done) .done)) .done⟩

def flat : StoryTree Body :=
  ⟨cross [.step "wait", .step "walk"], "street",
    .story "wait" wait "street" (.step go .done)
      (.story "walk" walk "street" (.step go .done) .done)⟩

def nestedPlan : Plan Body :=
  (Plan.compile cast nested.definition nested.owner).toOption.get rfl

def flatPlan : Plan Body := (Plan.compile cast flat.definition flat.owner).toOption.get rfl

theorem mounts_nested : Mounts cast nested nestedPlan where
  compiled := rfl
  unfolds := .story (.step (.story (.step .done) .done)) .done

theorem mounts_flat : Mounts cast flat flatPlan where
  compiled := rfl
  unfolds := .story (.step .done) (.story (.step .done) .done)

/-- Members that are new are numbered on, in whatever order the stories are combined. -/
theorem joined_signals :
    (Failures.join? (signals [("stop", 1), ("wait", 5)]) (signals [("wait", 2), ("walk", 7)])).bind
        (Failures.join? · (signals [("walk", 1), ("run", 2)])) =
      some (signals [("stop", 1), ("wait", 5), ("walk", 6), ("run", 7)]) ∧
    flat.vocabulary? = nested.vocabulary? ∧ flatPlan.failures = nestedPlan.failures ∧
    nestedPlan.failures = signals [("stop", 1), ("wait", 5), ("walk", 6), ("run", 7)] := by
  obtain ⟨-, -, -, -, hTrees⟩ := Failures.combine_isJoin (β := Body)
  obtain ⟨hEqual, hPlans⟩ := hTrees nested flat rfl (by decide)
  obtain ⟨-, hFailures⟩ := hPlans cast cast nestedPlan flatPlan mounts_nested mounts_flat
  exact ⟨rfl, hEqual, hFailures, rfl⟩

end Crossing

end Storyline
