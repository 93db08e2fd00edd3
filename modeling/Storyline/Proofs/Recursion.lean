import Mathlib.Data.List.Chain
import Mathlib.Logic.Relation
import Storyline.Proofs.Injection

/-!
# Stories found in themselves

Objects may refer to each other in circles, so that a story may be found in itself. Compiling comes
to an end all the same (`Plan.compile_ends`): a story on an object is open while it is compiled, no
story is compiled that is open, and there are only finitely many stories to be found.

That it does is said of the recursion without any bound on its depth, as a relation
(`Cast.Compiles`): a recursion that went on for ever would have no derivation. When a story
compiles, none of the stories on the way to a substory is found again, and a story that reaches
itself does not compile.
-/

set_option autoImplicit false

namespace Storyline

variable {β : Type}

/-! ## Loops that succeed -/

/-- A loop does the same when its steps do. -/
theorem foldlM_congr {ε α γ : Type} {f g : γ → α → Except ε γ} {list : List α}
    (h : ∀ a ∈ list, ∀ c, f c a = g c a) (c : γ) : list.foldlM f c = list.foldlM g c := by
  induction list generalizing c with
  | nil => rfl
  | cons a rest ih =>
      rw [List.foldlM_cons, List.foldlM_cons, h a List.mem_cons_self c]
      exact bind_congr fun c₁ => ih (fun other hOther => h other (List.mem_cons_of_mem a hOther)) c₁

/-- Every step of a loop that succeeds has succeeded. -/
theorem exists_eq_ok_of_foldlM {ε α γ : Type} {f : γ → α → Except ε γ} {list : List α} {c c' : γ}
    (h : list.foldlM f c = .ok c') {a : α} (hMem : a ∈ list) : ∃ c₁ c₂, f c₁ a = .ok c₂ := by
  induction list generalizing c with
  | nil => cases hMem
  | cons first rest ih =>
      rw [List.foldlM_cons] at h
      obtain ⟨c₁, hFirst, hRest⟩ := bind_eq_ok_iff.mp h
      rcases List.mem_cons.mp hMem with rfl | hLater
      · exact ⟨c, c₁, hFirst⟩
      · exact ih hRest hLater

namespace Cast

/-! ## The recursion without a bound -/

/-- A story on an object has another as a substory: one of its names stands for it. -/
def Nests (cast : Cast β) (outer inner : Story × OwnerId) : Prop :=
  ∃ name, .step name ∈ outer.1.collected ∧
    cast.member? outer.2 name = some (.story (.ok inner.1) inner.2)

/-- What a story compiles to, if its substories compile to `nested`. An open substory is not
compiled but is an error. -/
def compileWith (cast : Cast β) (opened : List Frame)
    (nested : Story → OwnerId → Except StoryError (Plan β)) (story : Story) (owner : OwnerId) :
    Except StoryError (Plan β) := do
  let d ← Draft.start story owner
  let d ← story.collected.foldlM (cast.attach story owner fun child place =>
    if opened.contains (frame child place) then none else some (nested child place)) d
  return d.finish

/-- The recursion by which a story is compiled while some stories are open: it is opened, and its
substories that are not open are compiled in the same way. A derivation is a recursion that comes
to an end. -/
inductive Compiles (cast : Cast β) :
    List Frame → Story → OwnerId → Except StoryError (Plan β) → Prop where
  | intro {opened : List Frame} {story : Story} {owner : OwnerId}
      {nested : Story → OwnerId → Except StoryError (Plan β)} :
      (∀ child place, cast.Nests (story, owner) (child, place) →
        frame child place ∉ frame story owner :: opened →
        Compiles cast (frame story owner :: opened) child place (nested child place)) →
      Compiles cast opened story owner
        (cast.compileWith (frame story owner :: opened) nested story owner)

section

variable {cast : Cast β} {story : Story} {owner : OwnerId} {opened : List Frame} {fuel : Nat}

/-- What a name of a story stands for is added alike, if the substories that it may stand for are
compiled alike. -/
theorem attach_congr {compile compile' : Story → OwnerId → Option (Except StoryError (Plan β))}
    (h : ∀ child place, cast.Nests (story, owner) (child, place) →
      compile child place = compile' child place)
    {collected : Collected} (hMem : collected ∈ story.collected) (d : Draft β) :
    cast.attach story owner compile d collected = cast.attach story owner compile' d collected := by
  cases collected with
  | parallel names => rfl
  | step name =>
      rw [attach, attach]
      split
      · rfl
      · rfl
      · rfl
      · rfl
      · next child place hMember => rw [h child place ⟨name, hMem, hMember⟩]

/-- Only what the substories that are not open compile to makes a difference. -/
theorem compileWith_congr {nested nested' : Story → OwnerId → Except StoryError (Plan β)}
    (h : ∀ child place, cast.Nests (story, owner) (child, place) → frame child place ∉ opened →
      nested child place = nested' child place) :
    cast.compileWith opened nested story owner = cast.compileWith opened nested' story owner := by
  refine bind_congr fun d => ?_
  rw [foldlM_congr fun collected hMem d => attach_congr (fun child place hNests => ?_) hMem d]
  split
  · rfl
  · next hClosed => rw [h child place hNests (by rwa [List.contains_iff_mem] at hClosed)]

/-- **The recursion has at most one outcome.** -/
theorem Compiles.unique {made made' : Except StoryError (Plan β)}
    (h : cast.Compiles opened story owner made) (h' : cast.Compiles opened story owner made') :
    made = made' := by
  induction h generalizing made' with
  | intro _ ih =>
      cases h' with
      | intro hNested =>
          exact compileWith_congr fun child place hNests hClosed =>
            ih child place hNests hClosed (hNested child place hNests hClosed)

/-- A bound on the depth is not met, if it allows for all stories that are not open, and the
recursion comes to an end. -/
theorem exists_compiles (hClosed : frame story owner ∉ opened)
    (hEnough : (cast.closed (frame story owner :: opened)).card ≤ fuel) :
    ∃ made, cast.planWithin (fuel + 1) opened story owner = some made ∧
      cast.Compiles opened story owner made := by
  induction fuel using Nat.strong_induction_on generalizing opened story owner with
  | h fuel ih =>
      -- what the bounded recursion makes of a substory; where it makes nothing is not looked at
      let nested : Story → OwnerId → Except StoryError (Plan β) := fun child place =>
        (cast.planWithin fuel (frame story owner :: opened) child place).getD
          (Plan.compile cast child place)
      have hNested : ∀ child place, cast.Nests (story, owner) (child, place) →
          frame child place ∉ frame story owner :: opened →
          cast.planWithin fuel (frame story owner :: opened) child place =
              some (nested child place) ∧
            cast.Compiles (frame story owner :: opened) child place (nested child place) := by
        intro child place hNests hNew
        obtain ⟨name, -, hMember⟩ := hNests
        -- a substory that is not open is one story less to be opened
        have hFound : frame child place ∈ cast.frames := mem_frames hMember
        have hLess := card_closed_cons hFound hNew
        obtain ⟨deeper, rfl⟩ : ∃ deeper, fuel = deeper + 1 := ⟨fuel - 1, by omega⟩
        obtain ⟨made, hMade, hCompiles⟩ := ih deeper (by omega) hNew (by omega)
        have hIs : nested child place = made := by simp only [nested, hMade, Option.getD_some]
        rw [hIs]
        exact ⟨hMade, hCompiles⟩
      refine ⟨_, ?_, .intro fun child place hNests hNew => (hNested child place hNests hNew).2⟩
      rw [planWithin_succ, if_neg (by rwa [List.contains_iff_mem])]
      refine congrArg some (bind_congr fun d => ?_)
      rw [foldlM_congr fun collected hMem d => attach_congr (fun child place hNests => ?_) hMem d]
      by_cases hOpen : frame child place ∈ frame story owner :: opened
      · rw [if_pos (List.contains_iff_mem.mpr hOpen)]
        exact Option.eq_none_iff_forall_ne_some.mpr fun made hMade => notMem_opened hMade hOpen
      · rw [if_neg (by rwa [List.contains_iff_mem])]
        exact (hNested child place hNests hOpen).1

end

/-! ## Ways down a story that compiles -/

section

variable {cast : Cast β} {opened : List Frame} {fuel : Nat} {plan : Plan β}

/-- The substories of a story that compiles have compiled while it was open. -/
theorem exists_planWithin_of_nests {outer inner : Story × OwnerId}
    (h : cast.planWithin fuel opened outer.1 outer.2 = some (.ok plan))
    (hNests : cast.Nests outer inner) :
    ∃ deeper made,
      cast.planWithin deeper (frame outer.1 outer.2 :: opened) inner.1 inner.2 =
        some (.ok made) := by
  obtain ⟨name, hMem, hMember⟩ := hNests
  cases fuel with
  | zero => cases h
  | succ deeper =>
      rw [planWithin_succ] at h
      split at h
      · cases h
      obtain ⟨d₀, -, hAll⟩ := bind_eq_ok_iff.mp (Option.some.inj h)
      obtain ⟨d, hLoop, -⟩ := bind_eq_ok_iff.mp hAll
      obtain ⟨d₁, d₂, hAttach⟩ := exists_eq_ok_of_foldlM hLoop hMem
      simp only [attach, hMember] at hAttach
      split at hAttach
      · next made hMade =>
        obtain ⟨child, rfl, -⟩ := bind_eq_ok_iff.mp hAttach
        exact ⟨deeper, child, hMade⟩
      · cases hAttach

/-- The stories on a way down a story that compiles are all different, and none of them was open
before. -/
theorem nodup_map_frame {first : Story × OwnerId} {rest : List (Story × OwnerId)}
    (hChain : (first :: rest).IsChain cast.Nests)
    (h : cast.planWithin fuel opened first.1 first.2 = some (.ok plan)) :
    ((first :: rest).map fun place => frame place.1 place.2).Nodup ∧
      ∀ place ∈ first :: rest, frame place.1 place.2 ∉ opened := by
  induction rest generalizing first opened fuel plan with
  | nil => exact ⟨List.nodup_singleton _, by simpa using notMem_opened h⟩
  | cons second others ih =>
      obtain ⟨hNests, hRest⟩ := List.isChain_cons_cons.mp hChain
      obtain ⟨deeper, made, hMade⟩ := exists_planWithin_of_nests h hNests
      obtain ⟨hDistinct, hNew⟩ := ih hRest hMade
      refine ⟨?_, fun place hPlace => ?_⟩
      · -- the first story is open while the others are compiled
        rw [List.map_cons, List.nodup_cons]
        refine ⟨fun hAgain => ?_, hDistinct⟩
        obtain ⟨place, hPlace, hSame⟩ := List.mem_map.mp hAgain
        exact hNew place hPlace (hSame ▸ List.mem_cons_self)
      · rcases List.mem_cons.mp hPlace with rfl | hLater
        · exact notMem_opened h
        · exact fun hOpen => hNew place hLater (List.mem_cons_of_mem _ hOpen)

/-- Whatever is reached from a story that compiles has compiled, with the stories open that were
open before. -/
theorem exists_planWithin_of_reaches {outer inner : Story × OwnerId}
    (h : cast.planWithin fuel opened outer.1 outer.2 = some (.ok plan))
    (hReaches : Relation.ReflTransGen cast.Nests outer inner) :
    ∃ deeper within made, opened ⊆ within ∧
      cast.planWithin deeper within inner.1 inner.2 = some (.ok made) := by
  induction hReaches with
  | refl => exact ⟨fuel, opened, plan, fun _ hOpen => hOpen, h⟩
  | tail _ hNests ih =>
      obtain ⟨deeper, within, made, hWithin, hMade⟩ := ih
      obtain ⟨deepest, child, hChild⟩ := exists_planWithin_of_nests hMade hNests
      exact ⟨deepest, _, child, fun _ hOpen => List.mem_cons_of_mem _ (hWithin hOpen), hChild⟩

end

end Cast

/-- **Compiling comes to an end.** On any objects, however they refer to each other, the recursion
by which a story is compiled has one outcome, which is what compiling gives. If that is a plan, then
on no way down the story is a story on an object found twice. So a story that reaches itself does not
compile, nor does any story that reaches one. -/
theorem Plan.compile_ends (cast : Cast β) (story : Story) (owner : OwnerId) :
    (∀ made, cast.Compiles [] story owner made ↔ made = Plan.compile cast story owner) ∧
    (∀ plan, Plan.compile cast story owner = .ok plan →
      ∀ chain, ((story, owner) :: chain).IsChain cast.Nests →
        (((story, owner) :: chain).map fun place => Cast.frame place.1 place.2).Nodup) ∧
    ∀ outer inner, Relation.ReflTransGen cast.Nests (story, owner) outer →
      Relation.TransGen cast.Nests outer inner →
      Cast.frame outer.1 outer.2 = Cast.frame inner.1 inner.2 →
      ∃ cause, Plan.compile cast story owner = .error cause := by
  have hAlone := cast.planWithin_nil story owner
  refine ⟨fun made => ?_, fun plan hPlan chain hChain => ?_, ?_⟩
  · -- there is an outcome, what compiling gives, and there is no other
    obtain ⟨only, hOnly, hCompiles⟩ :=
      Cast.exists_compiles List.not_mem_nil (cast.card_closed_le [Cast.frame story owner])
    obtain rfl : Plan.compile cast story owner = only := Option.some.inj (hAlone.symm.trans hOnly)
    constructor
    · exact fun hMade => hMade.unique hCompiles
    · rintro rfl
      exact hCompiles
  · rw [hPlan] at hAlone
    exact (Cast.nodup_map_frame hChain hAlone).1
  · intro outer inner hReaches hAgain hSame
    cases hPlan : Plan.compile cast story owner with
    | error cause => exact ⟨cause, rfl⟩
    | ok plan =>
        rw [hPlan] at hAlone
        obtain ⟨fuel, opened, made, -, hMade⟩ := Cast.exists_planWithin_of_reaches hAlone hReaches
        obtain ⟨next, hNests, hRest⟩ := Relation.TransGen.head'_iff.mp hAgain
        obtain ⟨deeper, child, hChild⟩ := Cast.exists_planWithin_of_nests hMade hNests
        obtain ⟨deepest, within, again, hWithin, hLast⟩ :=
          Cast.exists_planWithin_of_reaches hChild hRest
        -- the outer story was open when the inner one, which is the same, was compiled
        exact absurd (hSame ▸ hWithin List.mem_cons_self) (Cast.notMem_opened hLast)

/-! ## An example

A night on which one dreams of the night. -/

namespace Dream

open Shop (Body)

def night : Story where
  name := ⟨"Dream", "night"⟩
  arguments := []
  collected := [.step "dream"]
  spec := none
  failures := none

def dream : Story where
  name := ⟨"Dream", "dream"⟩
  arguments := []
  collected := [.step "night"]
  spec := none
  failures := none

def cast : Cast Body :=
  .ofList [("sleeper", {
    className := "Dream"
    members := .ofList [("night", .story (.ok night) "sleeper"),
      ("dream", .story (.ok dream) "sleeper")] })]

/-- The night does not compile, and the sale, which does, has the payment in it and nothing twice. -/
theorem ends :
    (∃ cause, Plan.compile cast night "sleeper" = .error cause) ∧
      [Cast.frame Shop.sell "shop", Cast.frame Shop.pay "shop"].Nodup := by
  have hDream : cast.Nests (night, "sleeper") (dream, "sleeper") :=
    ⟨"dream", List.mem_singleton_self _, rfl⟩
  have hNight : cast.Nests (dream, "sleeper") (night, "sleeper") :=
    ⟨"night", List.mem_singleton_self _, rfl⟩
  have hPay : Shop.cast.Nests (Shop.sell, "shop") (Shop.pay, "shop") :=
    ⟨"pay", by simp [Shop.sell], rfl⟩
  obtain ⟨-, -, hRejected⟩ := Plan.compile_ends cast night "sleeper"
  obtain ⟨-, hDistinct, -⟩ := Plan.compile_ends Shop.cast Shop.sell "shop"
  constructor
  · exact hRejected (night, "sleeper") (night, "sleeper") .refl (.tail (.single hDream) hNight) rfl
  · exact hDistinct Shop.plan Shop.mounts.compiled [(Shop.pay, "shop")]
      (.cons_cons hPay (.singleton _))

end Dream

end Storyline
