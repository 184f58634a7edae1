import Mathlib.Data.List.Basic
import Mathlib.Data.List.Flatten

namespace OciWrapper.Store

variable {W : Type}

inductive TxAction (W : Type)
  | write (w : W)
  | commit
  | rollback
  deriving DecidableEq

/-- One connection to a transactional store, as the list of writes it took. -/
structure TxStore (W : Type) where
  committed : List W
  pending : List W
  deriving DecidableEq

namespace TxStore

def empty : TxStore W := ⟨[], []⟩

def apply (s : TxStore W) : TxAction W → TxStore W
  | .write w => { s with pending := s.pending ++ [w] }
  | .commit => ⟨s.committed ++ s.pending, []⟩
  | .rollback => { s with pending := [] }

def replay (s : TxStore W) (actions : List (TxAction W)) : TxStore W := actions.foldl apply s

@[simp] theorem replay_nil (s : TxStore W) : s.replay [] = s := rfl

@[simp] theorem replay_cons (s : TxStore W) (action : TxAction W) (actions : List (TxAction W)) :
    s.replay (action :: actions) = (s.apply action).replay actions := rfl

theorem replay_append (s : TxStore W) (first later : List (TxAction W)) :
    s.replay (first ++ later) = (s.replay first).replay later := List.foldl_append

@[simp] theorem replay_writes (s : TxStore W) (ws : List W) :
    s.replay (ws.map .write) = { s with pending := s.pending ++ ws } := by
  induction ws generalizing s with
  | nil => simp
  | cons w ws ih => simp [ih, apply]

/-- What was committed before does not change what a replay adds. -/
theorem replay_frame (before : List W) (s : TxStore W) (actions : List (TxAction W)) :
    (⟨before ++ s.committed, s.pending⟩ : TxStore W).replay actions =
      ⟨before ++ (s.replay actions).committed, (s.replay actions).pending⟩ := by
  induction actions generalizing s with
  | nil => rfl
  | cons action actions ih =>
    cases action with
    | write w => exact ih ⟨s.committed, s.pending ++ [w]⟩
    | commit => simpa [apply, List.append_assoc] using ih ⟨s.committed ++ s.pending, []⟩
    | rollback => exact ih ⟨s.committed, []⟩

/-- What a block of actions commits when it runs alone. -/
def effectOf (actions : List (TxAction W)) : List W := (empty.replay actions).committed

/-- The block leaves nothing pending when it starts with nothing pending. -/
def Settles (actions : List (TxAction W)) : Prop := (empty.replay actions).pending = []

theorem replay_settles {actions : List (TxAction W)} (settles : Settles actions) {s : TxStore W}
    (clean : s.pending = []) : s.replay actions = ⟨s.committed ++ effectOf actions, []⟩ := by
  have framed := replay_frame s.committed empty actions
  simp only [empty, List.append_nil] at framed
  obtain ⟨committed, pending⟩ := s
  subst clean
  rw [framed]
  exact congrArg (TxStore.mk _) settles

/-- Blocks that settle add up: each commits what it commits alone. -/
theorem replay_blocks {blocks : List (List (TxAction W))}
    (settle : ∀ block ∈ blocks, Settles block) {s : TxStore W} (clean : s.pending = []) :
    s.replay blocks.flatten = ⟨s.committed ++ blocks.flatMap effectOf, []⟩ := by
  induction blocks generalizing s with
  | nil =>
    obtain ⟨committed, pending⟩ := s
    subst clean
    simp
  | cons block blocks ih =>
    rw [List.flatten_cons, replay_append, replay_settles (settle block List.mem_cons_self) clean,
      ih (fun other member => settle other (List.mem_cons_of_mem _ member)) rfl]
    simp [List.append_assoc]

/-- Without a commit or a rollback the writes only pile up. -/
theorem replay_open {actions : List (TxAction W)}
    (opens : ∀ action ∈ actions, ∃ w, action = .write w) (s : TxStore W) :
    ∃ ws, actions = ws.map .write ∧ s.replay actions = { s with pending := s.pending ++ ws } := by
  induction actions generalizing s with
  | nil => exact ⟨[], rfl, by simp⟩
  | cons action actions ih =>
    obtain ⟨w, rfl⟩ := opens action List.mem_cons_self
    obtain ⟨ws, rfl, -⟩ := ih (fun other member => opens other (List.mem_cons_of_mem _ member)) s
    exact ⟨w :: ws, rfl, replay_writes s (w :: ws)⟩

/-- Without a commit nothing is added to what is committed. -/
theorem replay_committed {actions : List (TxAction W)} (none : TxAction.commit ∉ actions)
    (s : TxStore W) : (s.replay actions).committed = s.committed := by
  induction actions generalizing s with
  | nil => rfl
  | cons action actions ih =>
    simp only [List.mem_cons, not_or] at none
    cases action with
    | write w => exact ih none.2 _
    | commit => exact absurd rfl none.1
    | rollback => exact ih none.2 _

end TxStore

end OciWrapper.Store
