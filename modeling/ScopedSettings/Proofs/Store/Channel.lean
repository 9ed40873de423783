/-
What a receiver of a channel is given.

A channel that has carried events keeps the last of them, as many as it has room for
(`Channel.Carries`), and a receiver that is not further behind than that is given the event
it expects next, or nothing if there is none yet (`Channel.Carries.receive_of_some`).
-/
import ScopedSettings.Store.Channel

namespace ScopedSettings.Channel

theorem le_powerFrom (n : Nat) : n ≤ powerFrom n := by
  unfold powerFrom
  split
  · assumption
  · have hlt : n - 1 < Nat.pow 2 ((n - 1).log2 + 1) := Nat.lt_log2_self
    omega

/-- A channel keeps at least the number of events it is asked to. -/
theorem le_capacity_ofCapacity (n : Nat) : n ≤ (ofCapacity n).capacity :=
  le_powerFrom n

/-- Has a channel carried the given events, all of them, and does it keep the last ones? -/
structure Carries (c : Channel) (es : List WriteEvent) : Prop where
  sent_eq : c.sent = es.length
  kept_eq : c.kept = es.drop (es.length - c.capacity)

namespace Carries

variable {c : Channel} {es : List WriteEvent}

theorem first (n : Nat) : (ofCapacity n).Carries [] :=
  ⟨rfl, List.drop_nil.symm⟩

theorem length_kept (h : c.Carries es) : c.kept.length = es.length - (es.length - c.capacity) := by
  rw [h.kept_eq, List.length_drop]

theorem send (h : c.Carries es) (e : WriteEvent) : (c.send e).Carries (es ++ [e]) where
  sent_eq := by
    change c.sent + 1 = _
    rw [h.sent_eq, List.length_append, List.length_singleton]
  kept_eq := by
    change (c.kept ++ [e]).drop ((c.kept ++ [e]).length - c.capacity) =
      (es ++ [e]).drop ((es ++ [e]).length - c.capacity)
    have hlength := h.length_kept
    have happend : c.kept ++ [e] = (es ++ [e]).drop (es.length - c.capacity) := by
      rw [h.kept_eq, List.drop_append_of_le_length (Nat.sub_le _ _)]
    rw [List.length_append, hlength, happend, List.drop_drop, List.length_append]
    congr 1
    simp only [List.length_singleton]
    omega

theorem oldest_eq (h : c.Carries es) : c.oldest = es.length - c.capacity := by
  unfold oldest
  rw [h.sent_eq, h.length_kept]
  omega

variable {r : Receiver} (hr : es.length ≤ r.next + c.capacity)

include hr in
theorem receive_eq (h : c.Carries es) :
    c.receive r = es[r.next]?.elim (.empty, r) fun e => (.event e, ⟨r.next + 1⟩) := by
  have hkept : c.kept[r.next - c.oldest]? = es[r.next]? := by
    rw [h.kept_eq, List.getElem?_drop, h.oldest_eq]
    congr 1
    omega
  unfold receive
  rw [if_neg (by rw [h.oldest_eq]; omega), hkept]
  cases es[r.next]? <;> rfl

include hr in
/-- A receiver that is not too far behind is given the event it expects. -/
theorem receive_of_some (h : c.Carries es) {e : WriteEvent} (he : es[r.next]? = some e) :
    c.receive r = (.event e, ⟨r.next + 1⟩) := by
  rw [h.receive_eq hr, he]
  rfl

include hr in
theorem receive_of_none (h : c.Carries es) (he : es[r.next]? = none) :
    c.receive r = (.empty, r) := by
  rw [h.receive_eq hr, he]
  rfl

omit hr in
/-- However far behind, a receiver is given nothing that the channel has not carried. -/
theorem mem_of_receive (h : c.Carries es) {e : WriteEvent} (he : (c.receive r).1 = .event e) :
    e ∈ es := by
  unfold receive at he
  split at he
  · cases he
  · split at he
    · rename_i e' hkept
      cases he
      have hmem := List.mem_of_getElem? hkept
      rw [h.kept_eq] at hmem
      exact List.mem_of_mem_drop hmem
    · cases he

end Carries
end ScopedSettings.Channel
