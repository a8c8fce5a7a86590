import Mathlib.Data.List.Basic

/-!
# Serving a queue in one pass

A resource is offered to the members of a queue in turn, and a member that can use it leaves
with its share. Where serving only consumes, and who refuses more refuses less, one pass is
enough: nobody left in the queue can be served from what remains.
-/

variable {Resource Member : Type*}

/-- Offer a resource to the members of a queue in turn: what remains, and who is left. -/
def serveAll (serve : Member → Resource → Option Resource) :
    List Member → Resource → Resource × List Member
  | [], resource => (resource, [])
  | member :: rest, resource =>
    match serve member resource with
    | some remaining => serveAll serve rest remaining
    | none => ((serveAll serve rest resource).1, member :: (serveAll serve rest resource).2)

theorem serveAll_cons_of_some {serve : Member → Resource → Option Resource} {member : Member}
    {rest : List Member} {resource remaining : Resource}
    (served : serve member resource = some remaining) :
    serveAll serve (member :: rest) resource = serveAll serve rest remaining := by
  simp only [serveAll, served]

theorem serveAll_cons_of_none {serve : Member → Resource → Option Resource} {member : Member}
    {rest : List Member} {resource : Resource} (refused : serve member resource = none) :
    (serveAll serve (member :: rest) resource).1 = (serveAll serve rest resource).1 := by
  simp only [serveAll, refused]

/-- Serving consumes, and a refusal stands when less is offered. -/
structure Consuming (serve : Member → Resource → Option Resource)
    (le : Resource → Resource → Prop) : Prop where
  refl : ∀ resource, le resource resource
  trans : ∀ {least less more}, le least less → le less more → le least more
  consumes : ∀ {member resource remaining}, serve member resource = some remaining →
    le remaining resource
  refuses : ∀ {member less more}, le less more → serve member more = none →
    serve member less = none

namespace Consuming

variable {serve : Member → Resource → Option Resource} {le : Resource → Resource → Prop}

/-- A pass consumes. -/
theorem serveAll_le (consuming : Consuming serve le) (queue : List Member) (resource : Resource) :
    le (serveAll serve queue resource).1 resource := by
  induction queue generalizing resource with
  | nil => exact consuming.refl resource
  | cons member rest ih =>
      unfold serveAll
      split
      · rename_i remaining served
        exact consuming.trans (ih remaining) (consuming.consumes served)
      · exact ih resource

/-- Nobody left can be served from what remains. -/
theorem refuses_of_mem (consuming : Consuming serve le) {queue : List Member}
    {resource : Resource} {member : Member} (left : member ∈ (serveAll serve queue resource).2) :
    serve member (serveAll serve queue resource).1 = none := by
  induction queue generalizing resource with
  | nil => simp [serveAll] at left
  | cons first rest ih =>
      cases served : serve first resource with
      | some remaining =>
          simp only [serveAll, served] at left ⊢
          exact ih left
      | none =>
          simp only [serveAll, served] at left ⊢
          rcases List.mem_cons.mp left with rfl | inRest
          · exact consuming.refuses (consuming.serveAll_le rest resource) served
          · exact ih inRest

end Consuming

/-- A pass only removes members. -/
theorem serveAll_sublist (serve : Member → Resource → Option Resource) (queue : List Member)
    (resource : Resource) : (serveAll serve queue resource).2.Sublist queue := by
  induction queue generalizing resource with
  | nil => exact .slnil
  | cons member rest ih =>
      unfold serveAll
      split
      · exact .cons _ (ih _)
      · exact .cons_cons _ (ih _)

/-- The second part of a queue is served from what the first has left. -/
theorem serveAll_append (serve : Member → Resource → Option Resource) (first second : List Member)
    (resource : Resource) : (serveAll serve (first ++ second) resource).1 =
      (serveAll serve second (serveAll serve first resource).1).1 := by
  induction first generalizing resource with
  | nil => rfl
  | cons member rest ih =>
      cases served : serve member resource with
      | some remaining =>
          rw [List.cons_append, serveAll_cons_of_some served, serveAll_cons_of_some served]
          exact ih remaining
      | none =>
          rw [List.cons_append, serveAll_cons_of_none served, serveAll_cons_of_none served]
          exact ih resource

section Shares

variable {Share Token : Type*}

/-- Serving by shares: what a member is granted is used up. -/
def serveBy (grant : Member → Resource → Option Share) (use : Resource → Share → Resource)
    (member : Member) (resource : Resource) : Option Resource :=
  (grant member resource).map (use resource)

/-- Who leaves the queue with which share. -/
def shareOut (grant : Member → Resource → Option Share) (use : Resource → Share → Resource) :
    List Member → Resource → List (Member × Share)
  | [], _ => []
  | member :: rest, resource =>
    match grant member resource with
    | some share => (member, share) :: shareOut grant use rest (use resource share)
    | none => shareOut grant use rest resource

/-- Every token of a resource stays or goes to one member. -/
structure SharedOut (holds : Resource → Token → Prop) (part : Share → Token → Prop)
    (before : Resource) (shares : List (Member × Share)) (after : Resource) : Prop where
  accounts : ∀ token, holds before token ↔
    holds after token ∨ ∃ share ∈ shares, part share.2 token
  apart : ∀ share ∈ shares, ∀ token, part share.2 token → ¬holds after token
  disjoint : shares.Pairwise fun share other => ∀ token, part share.2 token → ¬part other.2 token

namespace SharedOut

variable {holds : Resource → Token → Prop} {part : Share → Token → Prop}
  {before middle after : Resource} {shares others : List (Member × Share)}

theorem refl (resource : Resource) :
    SharedOut holds part resource ([] : List (Member × Share)) resource where
  accounts := by simp
  apart := by simp
  disjoint := .nil

/-- What the first queue leaves is shared out among the second. -/
theorem append (first : SharedOut holds part before shares middle)
    (second : SharedOut holds part middle others after) :
    SharedOut holds part before (shares ++ others) after := by
  have fewer : ∀ token, holds after token → holds middle token :=
    fun token held => (second.accounts token).mpr (.inl held)
  constructor
  case accounts =>
    intro token
    rw [first.accounts, second.accounts]
    simp only [List.mem_append]
    constructor
    · rintro ((held | ⟨share, member, owns⟩) | ⟨share, member, owns⟩)
      · exact .inl held
      · exact .inr ⟨share, .inr member, owns⟩
      · exact .inr ⟨share, .inl member, owns⟩
    · rintro (held | ⟨share, member | member, owns⟩)
      · exact .inl (.inl held)
      · exact .inr ⟨share, member, owns⟩
      · exact .inl (.inr ⟨share, member, owns⟩)
  case apart =>
    intro share member token owns held
    rcases List.mem_append.mp member with inFirst | inSecond
    · exact first.apart share inFirst token owns (fewer token held)
    · exact second.apart share inSecond token owns held
  case disjoint =>
    refine List.pairwise_append.mpr ⟨first.disjoint, second.disjoint, ?_⟩
    intro share inFirst other inSecond token owns owned
    exact first.apart share inFirst token owns ((second.accounts token).mpr (.inr ⟨other, inSecond, owned⟩))

end SharedOut

section Pass

variable {grant : Member → Resource → Option Share} {use : Resource → Share → Resource}

/-- One pass shares the resource out. -/
theorem shareOut_sharedOut {holds : Resource → Token → Prop} {part : Share → Token → Prop}
    (takes : ∀ {member resource share}, grant member resource = some share →
      ∀ token, part share token → holds resource token)
    (uses : ∀ resource share token, holds (use resource share) token ↔
      holds resource token ∧ ¬part share token)
    (queue : List Member) (resource : Resource) :
    SharedOut holds part resource (shareOut grant use queue resource)
      (serveAll (serveBy grant use) queue resource).1 := by
  induction queue generalizing resource with
  | nil => exact .refl resource
  | cons member rest ih =>
      cases granted : grant member resource with
      | none =>
          simp only [shareOut, serveAll, serveBy, granted, Option.map_none]
          exact ih resource
      | some share =>
          simp only [shareOut, serveAll, serveBy, granted, Option.map_some]
          have first : SharedOut holds part resource [(member, share)] (use resource share) := by
            refine ⟨fun token => ?_, ?_, List.pairwise_singleton _ _⟩
            · simp only [uses, List.mem_singleton, exists_eq_left]
              constructor
              · intro held
                by_cases owns : part share token
                · exact .inr owns
                · exact .inl ⟨held, owns⟩
              · rintro (⟨held, _⟩ | owns)
                · exact held
                · exact takes granted token owns
            · intro other isOther token owns held
              obtain rfl := List.mem_singleton.mp isOther
              exact ((uses resource share token).mp held).2 owns
          exact first.append (ih (use resource share))

/-- Whoever leaves was in the queue, and leaves with what was granted. -/
theorem of_mem_shareOut {queue : List Member} {resource : Resource} {left : Member × Share}
    (member : left ∈ shareOut grant use queue resource) :
    left.1 ∈ queue ∧ ∃ offered, grant left.1 offered = some left.2 := by
  induction queue generalizing resource with
  | nil => simp [shareOut] at member
  | cons first rest ih =>
      cases granted : grant first resource with
      | none =>
          simp only [shareOut, granted] at member
          exact ⟨List.mem_cons_of_mem _ (ih member).1, (ih member).2⟩
      | some share =>
          simp only [shareOut, granted, List.mem_cons] at member
          rcases member with rfl | inRest
          · exact ⟨List.mem_cons_self, resource, granted⟩
          · exact ⟨List.mem_cons_of_mem _ (ih inRest).1, (ih inRest).2⟩

/-- A member is granted its share of what those before it have left. -/
theorem grant_of_split {queue : List Member} {resource : Resource}
    {earlier later : List (Member × Share)} {left : Member × Share}
    (split : shareOut grant use queue resource = earlier ++ left :: later) :
    grant left.1 (earlier.foldl (fun resource share => use resource share.2) resource) =
      some left.2 := by
  induction queue generalizing resource earlier with
  | nil => simp [shareOut] at split
  | cons member rest ih =>
      cases granted : grant member resource with
      | none =>
          simp only [shareOut, granted] at split
          exact ih split
      | some share =>
          simp only [shareOut, granted] at split
          cases earlier with
          | nil =>
              obtain ⟨rfl, _⟩ := List.cons.inj split
              exact granted
          | cons first earlier =>
              obtain ⟨rfl, onward⟩ := List.cons.inj split
              exact @ih (use resource share) earlier onward

/-- The second part of a queue shares what the first has left. -/
theorem shareOut_append (first second : List Member) (resource : Resource) :
    shareOut grant use (first ++ second) resource = shareOut grant use first resource ++
      shareOut grant use second (serveAll (serveBy grant use) first resource).1 := by
  induction first generalizing resource with
  | nil => rfl
  | cons member rest ih =>
      cases granted : grant member resource with
      | none =>
          simp only [List.cons_append, shareOut, serveAll, serveBy, granted, Option.map_none]
          exact ih resource
      | some share =>
          simp only [List.cons_append, shareOut, serveAll, serveBy, granted, Option.map_some]
          exact congrArg _ (ih _)

/-- They leave in the order of the queue. -/
theorem shareOut_sublist (queue : List Member) (resource : Resource) :
    ((shareOut grant use queue resource).map Prod.fst).Sublist queue := by
  induction queue generalizing resource with
  | nil => exact .slnil
  | cons member rest ih =>
      unfold shareOut
      split
      · exact .cons_cons _ (ih _)
      · exact .cons _ (ih _)

/-- A member leaves with what it is granted of what those before it have left. -/
theorem mem_shareOut_iff {ahead behind : List Member} {member : Member} {share : Share}
    {resource : Resource} (distinct : (ahead ++ member :: behind).Nodup) :
    (member, share) ∈ shareOut grant use (ahead ++ member :: behind) resource ↔
      grant member (serveAll (serveBy grant use) ahead resource).1 = some share := by
  obtain ⟨_, distinctFrom, apart⟩ := List.nodup_append.mp distinct
  have notAhead : (member, share) ∉ shareOut grant use ahead resource := fun left =>
    apart member (of_mem_shareOut left).1 member List.mem_cons_self rfl
  have notBehind : ∀ offered, (member, share) ∉ shareOut grant use behind offered := fun _ left =>
    (List.nodup_cons.mp distinctFrom).1 (of_mem_shareOut left).1
  rw [shareOut_append, List.mem_append, or_iff_right notAhead, shareOut]
  split
  · rename_i granted taken
    rw [List.mem_cons, or_iff_left (notBehind _), taken, Option.some.injEq, Prod.mk.injEq,
      and_iff_right rfl, eq_comm]
  · rename_i refused
    simp [notBehind, refused]

/-- The others stay, in their order. -/
theorem serveAll_eq_filter [DecidableEq Member] {queue : List Member} (distinct : queue.Nodup)
    (resource : Resource) : (serveAll (serveBy grant use) queue resource).2 =
      queue.filter (· ∉ (shareOut grant use queue resource).map Prod.fst) := by
  induction queue generalizing resource with
  | nil => rfl
  | cons member rest ih =>
      obtain ⟨fresh, distinctRest⟩ := List.nodup_cons.mp distinct
      cases granted : grant member resource with
      | none =>
          have stays : member ∉ (shareOut grant use rest resource).map Prod.fst :=
            fun left => fresh ((shareOut_sublist rest resource).subset left)
          simp only [serveAll, serveBy, shareOut, granted, Option.map_none]
          rw [List.filter_cons_of_pos (by simpa using stays)]
          exact congrArg _ (ih distinctRest resource)
      | some share =>
          simp only [serveAll, serveBy, shareOut, granted, Option.map_some, List.map_cons]
          rw [List.filter_cons_of_neg (by simp)]
          refine (ih distinctRest _).trans (List.filter_congr fun other inRest => ?_)
          have different : other ≠ member := by
            rintro rfl
            exact fresh inRest
          simp [different]

end Pass

end Shares
