import Mathlib.Tactic

/-! An unbounded first-in first-out channel, kept with its history: everything that was ever sent,
and how much of it the receiver has taken. -/

namespace ProofKit

structure Channel (α : Type) where
  sent : List α
  taken : Nat
  inSent : taken ≤ sent.length

namespace Channel

variable {α : Type}

def empty : Channel α := ⟨[], 0, le_rfl⟩

def received (channel : Channel α) : List α := channel.sent.take channel.taken

def waiting (channel : Channel α) : List α := channel.sent.drop channel.taken

def send (channel : Channel α) (item : α) : Channel α :=
  ⟨channel.sent ++ [item], channel.taken,
    channel.inSent.trans (List.sublist_append_left _ _).length_le⟩

/-- Takes the oldest item that waits. -/
def recv (channel : Channel α) : Option (α × Channel α) :=
  if h : channel.taken < channel.sent.length then
    some (channel.sent[channel.taken], ⟨channel.sent, channel.taken + 1, h⟩)
  else none

@[simp] theorem sent_empty : (empty : Channel α).sent = [] := rfl

@[simp] theorem received_empty : (empty : Channel α).received = [] := rfl

@[simp] theorem sent_send (channel : Channel α) (item : α) :
    (channel.send item).sent = channel.sent ++ [item] := rfl

@[simp] theorem received_send (channel : Channel α) (item : α) :
    (channel.send item).received = channel.received := by
  simp only [received, send]
  exact List.take_append_of_le_length channel.inSent

theorem waiting_send (channel : Channel α) (item : α) :
    (channel.send item).waiting = channel.waiting ++ [item] :=
  List.drop_append_of_le_length channel.inSent

theorem received_append_waiting (channel : Channel α) :
    channel.received ++ channel.waiting = channel.sent :=
  List.take_append_drop channel.taken channel.sent

theorem mem_sent_of_mem_received {channel : Channel α} {item : α}
    (h : item ∈ channel.received) : item ∈ channel.sent :=
  List.mem_of_mem_take h

theorem received_sublist_sent (channel : Channel α) : channel.received.Sublist channel.sent :=
  List.take_sublist channel.taken channel.sent

section Recv

variable {channel channel' : Channel α} {item : α}

theorem recv_sent (h : channel.recv = some (item, channel')) : channel'.sent = channel.sent := by
  unfold recv at h
  split at h
  · cases h
    rfl
  · cases h

theorem recv_received (h : channel.recv = some (item, channel')) :
    channel'.received = channel.received ++ [item] := by
  unfold recv at h
  split at h
  · rename_i hlt
    cases h
    exact List.take_succ_eq_append_getElem hlt
  · cases h

theorem recv_waiting (h : channel.recv = some (item, channel')) :
    channel.waiting = item :: channel'.waiting := by
  unfold recv at h
  split at h
  · rename_i hlt
    cases h
    exact List.drop_eq_getElem_cons hlt
  · cases h

theorem recv_of_waiting {rest : List α} (h : channel.waiting = item :: rest) :
    ∃ channel', channel.recv = some (item, channel') ∧ channel'.waiting = rest := by
  cases hr : channel.recv with
  | none => grind [recv, waiting, List.drop_eq_nil_of_le, Nat.le_of_not_lt]
  | some taken =>
    obtain ⟨first, channel'⟩ := taken
    rw [recv_waiting hr] at h
    cases h
    exact ⟨channel', rfl, rfl⟩

theorem waiting_subset_sent : ∀ item ∈ channel.waiting, item ∈ channel.sent :=
  fun _ h => List.mem_of_mem_drop h

theorem mem_sent_of_recv (h : channel.recv = some (item, channel')) : item ∈ channel.sent := by
  rw [← recv_sent h]
  exact mem_sent_of_mem_received (by rw [recv_received h]; simp)

end Recv

end Channel

end ProofKit
