import DeusOs.Update.Model.Link

/-!
# The update link — schedules with bounded loss

The events of a link that loses at most one message of each DATA exchange.
An exchange is `Prompt` where the request is delivered to an idle device,
and the response collected and handed to the host before the timeout;
`Missed` where the response does not reach the host in time, whatever was
lost or is late. In between, anything may happen to the messages of
earlier exchanges, and every flash operation succeeds. Collecting where
nothing is armed does nothing, so an exchange with a device that is idle
already is `Prompt` too.
-/

namespace DeusOs

namespace Update

open Bootloader Host
open Nor (Outcome)

/-- Every operation takes effect and reports it. -/
def Sound (tape : ℕ → Option Outcome) : Prop := ∀ i, tape i = some Outcome.good

/-- The device meets packets on a sound flash, and has its responses
collected: no reset, no configuration. -/
def Calm : Event → Prop
  | .packet _ tape => Sound tape
  | .inComplete => True
  | _ => False

/-- What may happen to other messages than those of the request `id`. -/
def Elsewhere (id : ℕ) : LinkEvent → Prop
  | .deliver id' tape => id' ≠ id ∧ Sound tape
  | .dropRequest id' => id' ≠ id
  | .collect => True
  | .dropResponse id' => id' ≠ id
  | .read id' => id' ≠ id
  | _ => False

/-- What may happen to any message while the answer to `id` does not reach
the host. -/
def Withheld (id : ℕ) : LinkEvent → Prop
  | .deliver _ tape => Sound tape
  | .dropRequest _ => True
  | .collect => True
  | .dropResponse _ => True
  | .read id' => id' ≠ id
  | _ => False

/-- The exchange `id` goes through. -/
inductive Prompt (id : ℕ) : List LinkEvent → Prop
  | intro {b₁ b₂ b₃ : List LinkEvent} {tape : ℕ → Option Outcome} : (∀ e ∈ b₁, Elsewhere id e) →
      (∀ e ∈ b₂, Elsewhere id e) → (∀ e ∈ b₃, Elsewhere id e) → Sound tape →
      Prompt id (b₁ ++ (.collect :: .deliver id tape :: (b₂ ++ (.collect :: (b₃ ++ [.read id])))))

/-- The exchange `id` runs into the timeout. -/
inductive Missed (id : ℕ) : List LinkEvent → Prop
  | intro {b : List LinkEvent} : (∀ e ∈ b, Withheld id e) → Missed id (b ++ [.timeout])

/-- The DATA exchanges of an image from an offset, with the ids they use:
each goes through, or is missed once and goes through when it is tried
again. -/
inductive DataSchedule (imageLength : ℕ) : ℕ → ℕ → List LinkEvent → ℕ → Prop
  | done {offset id : ℕ} : imageLength ≤ offset → DataSchedule imageLength offset id [] id
  | prompt {offset id id' : ℕ} {e₁ e₂ : List LinkEvent} : offset < imageLength → Prompt id e₁ →
      DataSchedule imageLength (offset + chunkCount imageLength offset) (id + 1) e₂ id' →
      DataSchedule imageLength offset id (e₁ ++ e₂) id'
  | retried {offset id id' : ℕ} {e₁ e₂ e₃ : List LinkEvent} : offset < imageLength →
      Missed id e₁ → Prompt (id + 1) e₂ →
      DataSchedule imageLength (offset + chunkCount imageLength offset) (id + 2) e₃ id' →
      DataSchedule imageLength offset id (e₁ ++ (e₂ ++ e₃)) id'

/-- A whole update, from the id it starts with: BEGIN, AUTHORIZE and END go
through. -/
inductive UpdateSchedule (imageLength id : ℕ) : List LinkEvent → Prop
  | intro {id' : ℕ} {e₁ e₂ e₃ e₄ : List LinkEvent} : Prompt id e₁ → Prompt (id + 1) e₂ →
      DataSchedule imageLength 0 (id + 2) e₃ id' → Prompt id' e₄ →
      UpdateSchedule imageLength id (e₁ ++ (e₂ ++ (e₃ ++ e₄)))

end Update

end DeusOs
