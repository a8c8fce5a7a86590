import Mathlib.Data.List.Basic
import Mathlib.Logic.Function.Basic

/-!
# Cells with copies

Agents that share a cell read it into a copy of their own and write back what they make of that
copy. An update is lost when a copy was stale. As long as whoever writes is the only one with
a copy, none is: the cell holds what all updates so far make of its first value, one after
another.
-/

/-- A shared value, the copies its users have of it, and the updates written so far. -/
structure SharedCell (Agent D : Type*) where
  value : D
  copy : Agent → Option D
  updates : List (D → D)

namespace SharedCell

variable {Agent D : Type*}

/-- A cell nobody has read. -/
def new (value : D) : SharedCell Agent D where
  value := value
  copy _ := none
  updates := []

/-- An agent reads the cell. -/
def read [DecidableEq Agent] (cell : SharedCell Agent D) (agent : Agent) : SharedCell Agent D :=
  { cell with copy := Function.update cell.copy agent (some cell.value) }

/-- An agent writes what it makes of its copy. -/
def write [DecidableEq Agent] (cell : SharedCell Agent D) (agent : Agent) (copied : D)
    (update : D → D) : SharedCell Agent D where
  value := update copied
  copy := Function.update cell.copy agent (some (update copied))
  updates := cell.updates ++ [update]

/-- Agents that lose access lose their copies. -/
def keep (cell : SharedCell Agent D) (holds : Agent → Prop) [DecidablePred holds] :
    SharedCell Agent D :=
  { cell with copy := fun agent => if holds agent then cell.copy agent else none }

/-- No copy is stale, nobody without access has one, and no update is lost. -/
structure Coherent (cell : SharedCell Agent D) (first : D) (holds : Agent → Prop) : Prop where
  fresh : ∀ agent copied, cell.copy agent = some copied → copied = cell.value
  access : ∀ agent, cell.copy agent ≠ none → holds agent
  updated : cell.value = cell.updates.foldl (fun value update => update value) first

variable {cell : SharedCell Agent D} {first : D} {holds : Agent → Prop}

theorem Coherent.new (first : D) (holds : Agent → Prop) :
    Coherent (SharedCell.new first) first holds :=
  ⟨by simp [SharedCell.new], by simp [SharedCell.new], rfl⟩

theorem Coherent.read [DecidableEq Agent] (coherent : cell.Coherent first holds) {agent : Agent}
    (held : holds agent) : (cell.read agent).Coherent first holds where
  fresh other copied isCopy := by
    by_cases same : other = agent
    · subst same
      simpa [SharedCell.read, eq_comm] using isCopy
    · exact coherent.fresh other copied (by simpa [SharedCell.read, same] using isCopy)
  access other copied := by
    by_cases same : other = agent
    · exact same ▸ held
    · exact coherent.access other (by simpa [SharedCell.read, same] using copied)
  updated := coherent.updated

/-- The only agent with access may write. -/
theorem Coherent.write [DecidableEq Agent] (coherent : cell.Coherent first holds) {agent : Agent}
    {copied : D} (isCopy : cell.copy agent = some copied)
    (alone : ∀ other, holds other → other = agent) (update : D → D) :
    (cell.write agent copied update).Coherent first holds where
  fresh other value isValue := by
    by_cases same : other = agent
    · subst same
      simpa [SharedCell.write, eq_comm] using isValue
    · have before : cell.copy other = some value := by
        simpa [SharedCell.write, same] using isValue
      exact absurd (alone other (coherent.access other (by simp [before]))) same
  access other value := by
    by_cases same : other = agent
    · exact same ▸ coherent.access agent (by simp [isCopy])
    · exact coherent.access other (by simpa [SharedCell.write, same] using value)
  updated := by
    have whole : copied = cell.updates.foldl (fun value update => update value) first :=
      (coherent.fresh agent copied isCopy).trans coherent.updated
    simp [SharedCell.write, List.foldl_append, ← whole]

/-- Access changes hands when those who lose it lose their copies. -/
theorem Coherent.keep (coherent : cell.Coherent first holds) (holds' : Agent → Prop)
    [DecidablePred holds'] : (cell.keep holds').Coherent first holds' where
  fresh agent copied isCopy := by
    by_cases kept : holds' agent
    · exact coherent.fresh agent copied (by simpa [SharedCell.keep, kept] using isCopy)
    · simp [SharedCell.keep, kept] at isCopy
  access agent copied := by
    by_contra dropped
    simp [SharedCell.keep, dropped] at copied
  updated := coherent.updated

end SharedCell
