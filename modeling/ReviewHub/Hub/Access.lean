import ReviewHub.Hub.Working
/-!
# Using a hub from outside

Whoever holds a hub changes its roster and ignore list, takes envelopes off its queue if no worker
waits for them, and dispatches events on their own stack.
-/

namespace ReviewHub.Hub

variable {σ : Type}

def act (h : Hub σ) (a : Action) : Effect σ Reply :=
  let (reply, board, logs) := h.scene.board.act a
  { answer := reply
    hub := { h with scene := { h.scene with board := board } }
    happened := logs.map Happening.logged ++ [.acted a reply] }

/-- Takes the first envelope off the queue if there is one and no worker waits for work. -/
def tryPull (h : Hub σ) : Effect σ (Option Envelope) :=
  let (e?, q) := h.queue.tryPull
  { answer := e?
    hub := h.withQueue q
    happened := e?.toList.map (.taken .guest) }

def notify (h : Hub σ) (e : Event) : Effect σ Unit :=
  let (d, happened) := h.beginDispatch .guest e
  { answer := ()
    hub := { h with guests := h.guests ++ [d] }
    happened := happened }

/-- Takes the oldest dispatch from outside one step further, or removes it if it has ended. How it
has ended is the business of whoever began it. -/
def advanceGuest (rep : Repertoire σ) (h : Hub σ) : Effect σ Unit :=
  match h.guests with
  | [] => { answer := (), hub := h }
  | d :: rest =>
    match d.completion? with
    | some _ => { answer := (), hub := { h with guests := rest } }
    | none =>
      match d.step rep h.scene with
      | none => { answer := (), hub := h }
      | some (scene, d, notes) =>
        { answer := ()
          hub := { h with scene := scene, guests := d :: rest }
          happened := notes.map (.dispatched .guest) }

end ReviewHub.Hub
