import Mhuxd.CatNative
import Mhuxd.AsciiClients
import Mhuxd.YbinClients

/-!
# Whose commands the decoder of the CAT layer holds
-/

namespace Mhuxd

/-! ### The decoder -/

namespace Dec

variable {S : Nat → Prop} {d : Dec} {t : Nat}

/-- The clients whose commands the decoder holds. -/
def clients : Dec → List Nat
  | .civ c => c.pend.map (·.client) ++ if c.radioAddr = 0 ∧ c.lastDir = .host then [c.lastClient] else []
  | .ascii a => a.pend.map (·.client)
  | .ybin y => y.pend.map (·.client)

def Within (S : Nat → Prop) : Dec → Prop
  | .civ c => c.Within S
  | .ascii a => a.Within S
  | .ybin y => y.Within S

theorem within_iff : d.Within S ↔ (∀ c ∈ d.clients, S c) ∧ ∀ e ∈ d.drain.2, e.ClientIn S := by
  cases d with
  | civ c =>
    constructor
    · intro h
      refine ⟨fun x hx => ?_, h.out⟩
      rcases List.mem_append.1 hx with hx | hx
      · obtain ⟨p, hp, rfl⟩ := List.mem_map.1 hx
        exact h.pend p hp
      · split_ifs at hx with hl
        · rw [List.mem_singleton.1 hx]
          exact h.last hl.1 hl.2
        · exact absurd hx List.not_mem_nil
    · rintro ⟨hc, ho⟩
      refine ⟨fun p hp => hc _ (List.mem_append_left _ (List.mem_map_of_mem hp)), fun hr hd => ?_, ho⟩
      refine hc _ (List.mem_append_right _ ?_)
      rw [if_pos ⟨hr, hd⟩]
      exact List.mem_singleton_self _
  | ascii a =>
    constructor
    · exact fun h => ⟨fun x hx => by obtain ⟨p, hp, rfl⟩ := List.mem_map.1 hx; exact h.pend p hp, h.out⟩
    · exact fun h => ⟨fun p hp => h.1 _ (List.mem_map_of_mem hp), h.2⟩
  | ybin y =>
    constructor
    · exact fun h => ⟨fun x hx => by obtain ⟨p, hp, rfl⟩ := List.mem_map.1 hx; exact h.pend p hp, h.out⟩
    · exact fun h => ⟨fun p hp => h.1 _ (List.mem_map_of_mem hp), h.2⟩

namespace Within

theorem feed (h : d.Within S) (h0 : S 0) {dir : CatDir} {client : Nat} (hc : dir = .host → S client)
    (data : List UInt8) (t : Nat) : (d.feed dir client data t).Within S := by
  cases d with
  | civ c => exact Civ.Within.feed h h0 hc data t
  | ascii a => exact Ascii.Within.feed h h0 hc data t
  | ybin y => exact Ybin.Within.feed h h0 hc data t

theorem clientDiscard (h : d.Within S) (client : Nat) : (d.clientDiscard client).Within S := by
  cases d with
  | civ c => exact Civ.Within.clientDiscard h client
  | ascii a => exact Ascii.Within.clientDiscard h client
  | ybin y => exact Ybin.Within.clientDiscard h client

theorem expire (h : d.Within S) (t : Nat) : (d.expire t).Within S := by
  cases d with
  | civ c => exact h
  | ascii a => exact h
  | ybin y => exact Ybin.Within.expire h t

theorem resend (h : d.Within S) (max t : Nat) : (d.resend max t).1.Within S := by
  cases d with
  | civ c => exact Civ.Within.resend h max t
  | ascii a => exact h
  | ybin y => exact h

end Within

end Dec

end Mhuxd
