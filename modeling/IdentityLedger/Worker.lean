/-!
# Projection workers

A worker follows a subscription in a loop: it checks whether it was asked to stop,
then waits a while for a message and handles it. Asked to stop, it handles what is
queued and ends. It also ends when the bus is gone and nothing is queued, and when
the handler crashes; a handler that merely fails does not end it.

The schedule decides how publications and requests fall between the worker's steps.
-/
namespace IdentityLedger

/-- How handling a message went. -/
inductive Verdict where
  | done
  | failed
  | crashed
  deriving DecidableEq

/-- Handles a message in a state of its own. -/
abbrev Handler (σ μ : Type) := σ → μ → Verdict × σ

namespace Worker

inductive Phase where
  | checking
  | receiving
  | stopped
  | crashed
  deriving DecidableEq

inductive Step (μ : Type) where
  | publish (message : μ)
  | requestStop
  | closeBus
  /-- The worker's own next step; waiting in vain is a step too. -/
  | advance

end Worker

structure Worker (σ μ : Type) where
  inbox : List μ
  busOpen : Bool
  stopRequested : Bool
  phase : Worker.Phase
  state : σ

namespace Worker
variable {σ μ : Type}

def spawn (state : σ) : Worker σ μ := ⟨[], true, false, .checking, state⟩

def hasEnded (w : Worker σ μ) : Bool := w.phase = .stopped ∨ w.phase = .crashed

/-- Handles messages in order, up to one at which the handler crashes. Tells whether it did. -/
def handleAll (handler : Handler σ μ) : σ → List μ → Bool × σ
  | state, [] => (false, state)
  | state, message :: messages =>
    match handler state message with
    | (.crashed, state) => (true, state)
    | (_, state) => handleAll handler state messages

/-- The worker's own next step. -/
def advance (handler : Handler σ μ) (w : Worker σ μ) : Worker σ μ :=
  match w.phase with
  | .stopped | .crashed => w
  | .checking =>
    if w.stopRequested then
      let (crashed, state) := handleAll handler w.state w.inbox
      { w with inbox := [], phase := if crashed then .crashed else .stopped, state }
    else { w with phase := .receiving }
  | .receiving =>
    match w.inbox with
    | [] => { w with phase := if w.busOpen then .checking else .stopped }
    | message :: inbox =>
      match handler w.state message with
      | (.crashed, state) => { w with inbox := [], phase := .crashed, state }
      | (_, state) => { w with inbox, phase := .checking, state }

def step (handler : Handler σ μ) (w : Worker σ μ) : Step μ → Worker σ μ
  | .publish message =>
    if w.busOpen && !w.hasEnded then { w with inbox := w.inbox ++ [message] } else w
  | .requestStop => { w with stopRequested := true }
  | .closeBus => { w with busOpen := false }
  | .advance => w.advance handler

def run (handler : Handler σ μ) (w : Worker σ μ) (schedule : List (Step μ)) : Worker σ μ :=
  schedule.foldl (step handler) w

/-- Lets the worker take as many steps as it needs once it was asked to stop or the bus is
gone: two for each queued message, and three to notice the end. -/
def finish (handler : Handler σ μ) (w : Worker σ μ) : Worker σ μ :=
  w.run handler (List.replicate (2 * w.inbox.length + 3) .advance)

end Worker

end IdentityLedger
