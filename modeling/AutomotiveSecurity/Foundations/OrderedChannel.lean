import AutomotiveSecurity.Foundations.Prefix
import AutomotiveSecurity.Foundations.Runs

/-!
# Ordered channel

The abstract purpose of a protocol with sequence numbers: a receiver delivers the
sender's messages in sending order, without gaps, repetitions or inventions.  The
channel's state carries that property, so no operation can leave it.

Main results:

- Structure {lit}`Channel`: what was delivered is always a prefix of what was sent.
- Theorem {lit}`deliver_run`: delivering the next message is one run of the channel.
- Theorems {lit}`sendAll_run` and {lit}`deliverMany_run`: sending and delivering several
  messages at once are runs, too.

Current gaps:

- The channel has no notion of time; a sent message may stay undelivered forever.
-/

namespace AutomotiveSecurity.OrderedChannel

open Prefix Runs

variable {μ : Type*}

/-- A history of sent and delivered messages in which the deliveries follow the sends. -/
structure Channel (μ : Type*) where
  sent : List μ
  delivered : List μ
  in_order : delivered <+: sent

/-- The channel before its first message. -/
def Channel.empty : Channel μ where
  sent := []
  delivered := []
  in_order := List.nil_prefix

/-- The sender hands over one more message. -/
def Channel.send (c : Channel μ) (m : μ) : Channel μ where
  sent := c.sent ++ [m]
  delivered := c.delivered
  in_order := c.in_order.trans (List.prefix_append _ _)

/-- The receiver delivers the first message not delivered yet. -/
def Channel.deliver (c : Channel μ) (m : μ)
    (hnext : c.sent[c.delivered.length]? = some m) : Channel μ where
  sent := c.sent
  delivered := c.delivered ++ [m]
  in_order := prefix_concat_next c.in_order hnext

/-- What can happen on the channel. -/
inductive Operation (μ : Type*)
  | send (m : μ)
  | deliver

/-- One operation; a delivery needs a message that is still pending. -/
def step (c : Channel μ) : Operation μ → Option (Channel μ)
  | .send m => some (c.send m)
  | .deliver =>
      match hnext : c.sent[c.delivered.length]? with
      | some m => some (c.deliver m hnext)
      | none => none

theorem send_run (c : Channel μ) (m : μ) : run step c [.send m] = some (c.send m) :=
  run_singleton.mpr rfl

/-- Delivering the next pending message is a run of the channel. -/
theorem deliver_run (c : Channel μ) {m : μ}
    (hnext : c.sent[c.delivered.length]? = some m) :
    run step c [.deliver] = some (c.deliver m hnext) := by
  refine run_singleton.mpr ?_
  rw [step]
  split
  · rename_i m' hm'
    have hmm : m' = m := Option.some.inj (hm'.symm.trans hnext)
    subst hmm
    rfl
  · rename_i hnone
    rw [hnone] at hnext
    contradiction

/-! ## Several messages at a time -/

/-- The messages sent and not delivered yet. -/
def Channel.pending (c : Channel μ) : List μ :=
  c.sent.drop c.delivered.length

/-- Nothing is lost: what was delivered and what is pending make up what was sent. -/
theorem Channel.delivered_append_pending (c : Channel μ) : c.delivered ++ c.pending = c.sent :=
  List.prefix_iff_eq_append.mp c.in_order

/-- The sender hands over several messages. -/
def Channel.sendAll (c : Channel μ) (ms : List μ) : Channel μ where
  sent := c.sent ++ ms
  delivered := c.delivered
  in_order := c.in_order.trans (List.prefix_append _ _)

/-- The receiver delivers pending messages, as many as asked for and available. -/
def Channel.deliverMany (c : Channel μ) (count : Nat) : Channel μ where
  sent := c.sent
  delivered := c.delivered ++ c.pending.take count
  in_order := by
    conv_rhs => rw [← c.delivered_append_pending]
    exact (List.prefix_append_right_inj _).mpr (List.take_prefix _ _)

/-- If all pending messages are asked for, everything sent has been delivered. -/
theorem Channel.delivered_deliverMany (c : Channel μ) {count : Nat}
    (hall : c.pending.length ≤ count) : (c.deliverMany count).delivered = c.sent := by
  show c.delivered ++ c.pending.take count = c.sent
  rw [List.take_of_length_le hall, delivered_append_pending]

theorem sendAll_run (c : Channel μ) (ms : List μ) :
    run step c (ms.map .send) = some (c.sendAll ms) := by
  induction ms generalizing c with
  | nil => simp [Channel.sendAll]
  | cons m ms ih =>
      refine run_cons.mpr ⟨c.send m, rfl, (ih (c.send m)).trans ?_⟩
      simp [Channel.sendAll, Channel.send]

theorem deliverMany_run (c : Channel μ) {count : Nat} (hcount : count ≤ c.pending.length) :
    run step c (List.replicate count .deliver) = some (c.deliverMany count) := by
  induction count generalizing c with
  | zero => simp [Channel.deliverMany]
  | succ count ih =>
      cases hpending : c.pending with
      | nil => simp [hpending] at hcount
      | cons m rest =>
          have hnext : c.sent[c.delivered.length]? = some m := by
            rw [← c.delivered_append_pending, hpending]
            simp
          -- Behind the first pending message stands the rest.
          have hrest : (c.deliver m hnext).pending = rest := by
            simp only [Channel.pending, Channel.deliver, List.length_append,
              List.length_singleton, ← List.drop_drop]
            rw [← Channel.pending, hpending]
            rfl
          have hstep := run_singleton.mp (deliver_run c hnext)
          refine run_cons.mpr ⟨_, hstep, (ih (c.deliver m hnext) ?_).trans ?_⟩
          · rw [hpending] at hcount
            rw [hrest]
            exact Nat.le_of_succ_le_succ hcount
          · simp [Channel.deliverMany, Channel.deliver, hpending, ← hrest]

end AutomotiveSecurity.OrderedChannel
