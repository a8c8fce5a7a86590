import Mathlib.Data.List.Nodup
import Mathlib.Logic.Function.Basic

/-!
# Singly linked chains

`Chain next head nodes` says that following `next` from `head` visits exactly
`nodes`, in order, and then reaches the end. The three operations an intrusive
list needs (prepend, unlink behind a predecessor, and a frame rule for nodes
outside the chain) are rules about `Chain`; nothing here depends on what a node
is or on how its link is stored.
-/

namespace Linked

variable {α : Type*}

/-- Following `next` from `head` visits `nodes` and then the null link. -/
def Chain (next : α → Option α) : Option α → List α → Prop
  | head, [] => head = none
  | head, node :: rest => head = some node ∧ Chain next (next node) rest

@[simp] theorem chain_nil {next : α → Option α} {head : Option α} :
    Chain next head [] ↔ head = none := Iff.rfl

@[simp] theorem chain_cons {next : α → Option α} {head : Option α} {node : α} {rest : List α} :
    Chain next head (node :: rest) ↔ head = some node ∧ Chain next (next node) rest := Iff.rfl

/-- A null head carries no nodes. -/
theorem Chain.eq_nil {next : α → Option α} {nodes : List α}
    (chain : Chain next none nodes) : nodes = [] := by
  cases nodes with
  | nil => rfl
  | cons node rest => simp at chain

/-- The node a head link leads to is the first. -/
theorem Chain.exists_cons {next : α → Option α} {node : α} {nodes : List α}
    (chain : Chain next (some node) nodes) :
    ∃ rest, nodes = node :: rest ∧ Chain next (next node) rest := by
  cases nodes with
  | nil => cases chain
  | cons head rest =>
      obtain ⟨isHead, chainRest⟩ := chain
      obtain rfl := Option.some.inj isHead
      exact ⟨rest, rfl, chainRest⟩

/-- The head link is null exactly when the chain has no node. -/
theorem Chain.head_eq_none_iff {next : α → Option α} {head : Option α} {nodes : List α}
    (chain : Chain next head nodes) : head = none ↔ nodes = [] := by
  cases nodes with
  | nil => simpa using chain
  | cons node rest => simp [chain.1]

/-- The head link leads to the first node. -/
theorem Chain.eq_head? {next : α → Option α} {head : Option α} {nodes : List α}
    (chain : Chain next head nodes) : head = nodes.head? := by
  cases nodes with
  | nil => exact chain
  | cons node rest => exact chain.1

/-- Induction for loops that follow a chain and have fuel for each node. -/
@[elab_as_elim]
theorem Chain.walk {next : α → Option α}
    {motive : (fuel : Nat) → (head : Option α) → (nodes : List α) →
      Chain next head nodes → nodes.length ≤ fuel → Prop}
    (done : ∀ fuel chain enough, motive fuel none [] chain enough)
    (visit : ∀ fuel node rest chain enough chainRest enoughRest,
      motive fuel (next node) rest chainRest enoughRest →
      motive (fuel + 1) (some node) (node :: rest) chain enough)
    {fuel : Nat} {head : Option α} {nodes : List α} (chain : Chain next head nodes)
    (enough : nodes.length ≤ fuel) : motive fuel head nodes chain enough := by
  induction nodes generalizing fuel head with
  | nil =>
      have isEnd : head = none := chain
      subst isEnd
      exact done fuel chain enough
  | cons node rest ih =>
      obtain ⟨isHead, chainRest⟩ := chain
      subst isHead
      cases fuel with
      | zero => simp at enough
      | succ fuel =>
          have enoughRest : rest.length ≤ fuel := by simpa using enough
          exact visit fuel node rest ⟨rfl, chainRest⟩ enough chainRest enoughRest
            (ih chainRest enoughRest)

/-- Frame rule: only the links of the visited nodes matter. -/
theorem Chain.congr {next next' : α → Option α} {head : Option α} {nodes : List α}
    (same : ∀ node ∈ nodes, next' node = next node)
    (chain : Chain next head nodes) : Chain next' head nodes := by
  induction nodes generalizing head with
  | nil => exact chain
  | cons node rest ih =>
      refine ⟨chain.1, ?_⟩
      rw [same node List.mem_cons_self]
      exact ih (fun other member => same other (List.mem_cons_of_mem _ member)) chain.2

/-- A head link determines the nodes it leads to. -/
theorem Chain.unique {next : α → Option α} {head : Option α} {left right : List α}
    (first : Chain next head left) (second : Chain next head right) : left = right := by
  induction left generalizing head right with
  | nil =>
      have headNull : head = none := first
      subst headNull
      exact second.eq_nil.symm
  | cons node rest ih =>
      cases right with
      | nil => simp [first.1] at second
      | cons other tail =>
          have same : node = other := Option.some.inj (first.1.symm.trans second.1)
          subst same
          rw [ih first.2 second.2]

/-- The nodes a chain visits determine its head and its links. -/
theorem Chain.links_eq {next next' : α → Option α} {head head' : Option α} {nodes : List α}
    (first : Chain next head nodes) (second : Chain next' head' nodes) :
    head = head' ∧ ∀ node ∈ nodes, next node = next' node := by
  induction nodes generalizing head head' with
  | nil => exact ⟨first.trans second.symm, by simp⟩
  | cons node rest ih =>
      obtain ⟨onward, links⟩ := ih first.2 second.2
      refine ⟨first.1.trans second.1.symm, fun other member => ?_⟩
      rcases List.mem_cons.mp member with rfl | inRest
      · exact onward
      · exact links other inRest

/-- Split a chain at a node: the part in front ends in that node. -/
theorem Chain.split {next : α → Option α} {head : Option α} {before after : List α} {node : α}
    (chain : Chain next head (before ++ node :: after)) : Chain next (next node) after := by
  induction before generalizing head with
  | nil => exact chain.2
  | cons first rest ih => exact ih chain.2

/-- A chain that ends visits no node twice. -/
theorem Chain.nodup {next : α → Option α} {head : Option α} {nodes : List α}
    (chain : Chain next head nodes) : nodes.Nodup := by
  induction nodes generalizing head with
  | nil => exact List.nodup_nil
  | cons node rest ih =>
      refine List.nodup_cons.mpr ⟨fun member => ?_, ih chain.2⟩
      -- a second visit would have to be followed by the same nodes as the first
      obtain ⟨before, after, split⟩ := List.append_of_mem member
      have again : Chain next (next node) after := Chain.split (split ▸ chain.2)
      have lengths := congrArg List.length ((chain.2.unique again).symm.trans split)
      simp only [List.length_append, List.length_cons] at lengths
      omega

/-- The head link of a chain that starts with a non-empty part. -/
theorem Chain.head_eq {next : α → Option α} {head : Option α} {node : α} {after : List α}
    (chain : Chain next head (node :: after)) : head = some node := chain.1

/-- Linking past the node behind `previous` removes exactly that node. -/
theorem Chain.unlink [DecidableEq α] {next : α → Option α} {head : Option α} {before after : List α}
    {previous node : α} (distinct : (before ++ previous :: node :: after).Nodup)
    (chain : Chain next head (before ++ previous :: node :: after)) :
    Chain (Function.update next previous (next node)) head (before ++ previous :: after) := by
  induction before generalizing head with
  | nil =>
      have fresh : previous ∉ after := by
        have notTail := (List.nodup_cons.mp distinct).1
        exact fun member => notTail (List.mem_cons_of_mem _ member)
      refine ⟨chain.1, ?_⟩
      rw [Function.update_self]
      have frame : ∀ other ∈ after, Function.update next previous (next node) other = next other := by
        intro other member
        apply Function.update_of_ne
        rintro rfl
        exact fresh member
      exact Chain.congr frame chain.2.2
  | cons first rest ih =>
      have firstFresh : first ≠ previous := by
        rintro rfl
        exact (List.nodup_cons.mp distinct).1 (by simp)
      refine ⟨chain.1, ?_⟩
      rw [Function.update_of_ne firstFresh]
      exact ih (List.nodup_cons.mp distinct).2 chain.2

/-- Prepending a node that is not in the chain. -/
theorem Chain.push [DecidableEq α] {next : α → Option α} {head : Option α} {nodes : List α}
    {node : α} (chain : Chain next head nodes) (fresh : node ∉ nodes) :
    Chain (Function.update next node head) (some node) (node :: nodes) := by
  refine ⟨rfl, ?_⟩
  rw [Function.update_self]
  refine chain.congr fun other member => Function.update_of_ne ?_ _ _
  rintro rfl
  exact fresh member

/-- In a chain the node in front of another one links to a node up to that other one. -/
theorem Chain.exists_next {next : α → Option α} {head : Option α} {before after : List α}
    {node other : α} (chain : Chain next head (before ++ node :: after))
    (earlier : other ∈ before) : ∃ successor ∈ before ++ [node], next other = some successor := by
  obtain ⟨front, back, rfl⟩ := List.append_of_mem earlier
  have whole : Chain next head (front ++ other :: (back ++ node :: after)) := by
    simpa using chain
  have onward := whole.split
  cases back with
  | nil => exact ⟨node, by simp, onward.1⟩
  | cons successor back => exact ⟨successor, by simp, onward.1⟩

/-- Following `next` from `head` never reaches the null link: it stays among some nodes. -/
def Endless (next : α → Option α) (head : Option α) : Prop :=
  ∃ nodes : List α, (∃ node ∈ nodes, head = some node) ∧
    ∀ node ∈ nodes, ∃ successor ∈ nodes, next node = some successor

/-- Then no chain describes it. -/
theorem Endless.not_chain {next : α → Option α} {head : Option α} (endless : Endless next head)
    (visited : List α) : ¬ Chain next head visited := by
  obtain ⟨nodes, ⟨first, member, isHead⟩, closed⟩ := endless
  induction visited generalizing head first with
  | nil =>
      intro (isNull : head = none)
      simp [isHead] at isNull
  | cons node rest ih =>
      rintro ⟨isNode, chain⟩
      obtain rfl : first = node := by simpa [isHead] using isNode
      obtain ⟨successor, inside, isNext⟩ := closed first member
      exact ih successor inside isNext chain

/-- Prepending keeps it endless, whatever the node linked to before. -/
theorem Endless.push [DecidableEq α] {next : α → Option α} {head : Option α}
    (endless : Endless next head) (node : α) :
    Endless (Function.update next node head) (some node) := by
  obtain ⟨nodes, ⟨first, member, isHead⟩, closed⟩ := endless
  refine ⟨node :: nodes, ⟨node, by simp, rfl⟩, fun other inside => ?_⟩
  by_cases same : other = node
  · subst same
    exact ⟨first, by simp [member], by rw [Function.update_self, isHead]⟩
  · obtain ⟨successor, isInside, isNext⟩ :=
      closed other ((List.mem_cons.mp inside).resolve_left same)
    exact ⟨successor, by simp [isInside], by rw [Function.update_of_ne same, isNext]⟩

/-- Prepending a node of the chain closes a cycle. -/
theorem Chain.push_again [DecidableEq α] {next : α → Option α} {head : Option α} {nodes : List α}
    {node : α} (chain : Chain next head nodes) (member : node ∈ nodes) :
    Endless (Function.update next node head) (some node) := by
  obtain ⟨before, after, rfl⟩ := List.append_of_mem member
  refine ⟨before ++ [node], ⟨node, by simp, rfl⟩, fun other inside => ?_⟩
  by_cases same : other = node
  · subst same
    rw [Function.update_self]
    cases before with
    | nil => exact ⟨other, by simp, chain.1⟩
    | cons first before => exact ⟨first, by simp, chain.1⟩
  · rw [Function.update_of_ne same]
    refine chain.exists_next ?_
    simpa [same] using inside

/-- The nodes following `next` from a link visits, as far as the fuel goes. -/
def follow (next : α → Option α) : Nat → Option α → List α
  | 0, _ => []
  | _ + 1, none => []
  | fuel + 1, some node => node :: follow next fuel (next node)

/-- With enough fuel they are the nodes of the chain. -/
theorem Chain.follow_eq {next : α → Option α} {head : Option α} {nodes : List α} {fuel : Nat}
    (chain : Chain next head nodes) (enough : nodes.length ≤ fuel) :
    follow next fuel head = nodes := by
  induction nodes generalizing head fuel with
  | nil =>
      obtain rfl : head = none := chain
      cases fuel <;> rfl
  | cons node rest ih =>
      obtain ⟨rfl, onward⟩ := chain
      cases fuel with
      | zero => simp at enough
      | succ fuel => exact congrArg (node :: ·) (ih onward (Nat.le_of_succ_le_succ enough))

/-- The nodes reached from a link, by following `next` any number of times. -/
inductive Follows (next : α → Option α) : Option α → α → Prop where
  | here (node : α) : Follows next (some node) node
  | there {node target : α} (onward : Follows next (next node) target) :
      Follows next (some node) target

/-- The nodes of a chain are exactly the nodes its head link reaches. -/
theorem Chain.follows_iff {next : α → Option α} {head : Option α} {nodes : List α}
    (chain : Chain next head nodes) (target : α) : Follows next head target ↔ target ∈ nodes := by
  induction nodes generalizing head with
  | nil =>
      have headNull : head = none := chain
      subst headNull
      simp only [List.not_mem_nil, iff_false]
      intro follows
      cases follows
  | cons node rest ih =>
      obtain ⟨rfl, tail⟩ := chain
      rw [List.mem_cons, ← ih tail]
      constructor
      · intro follows
        cases follows with
        | here => exact .inl rfl
        | there onward => exact .inr onward
      · rintro (rfl | onward)
        · exact .here _
        · exact .there onward

end Linked
