import BroadcomWl.Systems.Machine
import Mathlib.Data.List.Nodup

/-!
# First-in first-out channels

The abstract component behind every queue of the driver: items are sent, wait in
order, and are delivered from the front. An implementation that is simulated by a
channel loses nothing, duplicates nothing and keeps the order, since the items a
channel was sent are by construction the delivered ones followed by the waiting
ones.
-/

namespace BroadcomWl.Systems

/-- A channel: the items already delivered and the items that still wait, oldest first. -/
structure Channel (Item : Type*) where
  delivered : List Item
  queue : List Item

namespace Channel

variable {Item : Type*}

/-- All items ever sent, in the order in which they were sent. -/
def sent (channel : Channel Item) : List Item := channel.delivered ++ channel.queue

inductive Label (Item : Type*) where
  | send (item : Item)
  | deliver

def send (channel : Channel Item) (item : Item) : Channel Item :=
  { channel with queue := channel.queue ++ [item] }

/-- Deliver the oldest waiting item. -/
def deliver (channel : Channel Item) : Option (Channel Item) :=
  match channel.queue with
  | [] => none
  | item :: rest => some ⟨channel.delivered ++ [item], rest⟩

/-- The channel as a machine that starts empty. -/
def machine (Item : Type*) : Machine (Channel Item) (Label Item) where
  initial channel := channel = ⟨[], []⟩
  step channel
    | .send item => some (channel.send item)
    | .deliver => channel.deliver

theorem run_send (channel : Channel Item) (item : Item) :
    (machine Item).run channel [.send item] = some (channel.send item) := rfl

theorem run_deliver {channel next : Channel Item} (h : channel.deliver = some next) :
    (machine Item).run channel [.deliver] = some next := by
  rw [Machine.run_cons]
  exact Option.bind_eq_some_iff.mpr ⟨next, h, rfl⟩

@[simp]
theorem sent_send (channel : Channel Item) (item : Item) :
    (channel.send item).sent = channel.sent ++ [item] := by
  simp [sent, send]

/-- Delivery moves an item, it neither adds nor removes one. -/
theorem sent_deliver {channel next : Channel Item} (h : channel.deliver = some next) :
    next.sent = channel.sent := by
  obtain ⟨delivered, queue⟩ := channel
  cases queue with
  | nil => cases h
  | cons item rest =>
    cases h
    simp [sent]

theorem queue_send_nodup {channel : Channel Item} {item : Item} (hqueue : channel.queue.Nodup)
    (hitem : item ∉ channel.queue) : (channel.send item).queue.Nodup := by
  have hconcat := hqueue.concat hitem
  rwa [List.concat_eq_append] at hconcat

theorem delivered_prefix (channel : Channel Item) : channel.delivered <+: channel.sent :=
  List.prefix_append _ _

end Channel

end BroadcomWl.Systems
