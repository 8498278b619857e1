import Mhuxd.Link

/-!
# Nothing is lost or reordered on the way to the keyer

For a data channel `c`, what the keyer has read since the connect, with what is still on its way
(`Link.pending`), is what was on its way at the connect followed by what was queued since (`Fifo`).
The law asks nothing of a run; a property `P` of what is on its way at a connect is carried along.
-/

namespace Mhuxd

theorem isMh_of_isData {c : Channel} (hc : isData c = true) : c.isMh = true := by
  cases c <;> simp_all [isData, Channel.isMh]

namespace Link

variable {c : Channel} {l : Link}

/-- The bytes of a data channel on their way to the keyer: in the output buffer, read where the line
stands, then in the channel's buffer. -/
def pending (l : Link) (c : Channel) : List UInt8 :=
  chanBytes c (l.wire.dec.slots l.bufOut.unread) ++ (l.chanOut c).unread

/-- What the keyer has read of the channel since the connect. -/
def written (l : Link) (c : Channel) : List UInt8 := chanBytes c l.wire.slots

def Fifo (P : List UInt8 → Prop) (c : Channel) (l : Link) : Prop :=
  ∃ stale, P stale ∧ l.written c ++ l.pending c = stale ++ l.wire.queued c

namespace Fifo

variable {P : List UInt8 → Prop}

theorem of_eq {l l' : Link} (h : Fifo P c l) (hw : l'.written c = l.written c) (hp : l'.pending c = l.pending c)
    (hq : l'.wire.queued c = l.wire.queued c) : Fifo P c l' := by
  obtain ⟨stale, hs, heq⟩ := h
  exact ⟨stale, hs, by rw [hw, hp, hq, heq]⟩

theorem queue (h : Fifo P c l) {ch : Channel} {p : List UInt8} (hfit : p.length ≤ (l.chanOut ch).avail) :
    Fifo P c (l.queue ch p) := by
  by_cases hch : c = ch
  · obtain ⟨stale, hs, heq⟩ := h
    subst hch
    refine ⟨stale, hs, ?_⟩
    have hp : (l.queue c p).pending c = l.pending c ++ p := by
      show _ ++ (upd l.chanOut c ((l.chanOut c).append p) c).unread = _
      rw [upd_self, Buffer.unread_append_of_le _ hfit, ← List.append_assoc]
      rfl
    have hq : (l.queue c p).wire.queued c = l.wire.queued c ++ p := by
      show upd l.wire.queued c _ c = _
      rw [upd_self]
    rw [hp, hq, ← List.append_assoc, ← List.append_assoc, ← heq]
    rfl
  · refine h.of_eq rfl ?_ ?_
    · show _ ++ (upd l.chanOut ch _ c).unread = _
      rw [upd_of_ne _ _ hch]
      rfl
    · show upd l.wire.queued ch _ c = _
      rw [upd_of_ne _ _ hch]

theorem push (h : Fifo P c l) : Fifo P c l.push := by
  have hs : Fifo P c l.sync := h.of_eq rfl rfl rfl
  unfold Link.push
  split_ifs with hc
  · refine hs.queue ?_
    simp only [Link.canPush, Bool.and_eq_true, decide_eq_true_eq] at hc
    exact hc.2
  · exact hs

theorem drop (h : Fifo P c l) : Fifo P c l.drop := by
  unfold Link.drop
  split_ifs
  · exact h.of_eq rfl rfl rfl
  · exact h

theorem setMasks (h : Fifo P c l) (ch : Channel) (i : Nat) (masks : List UInt8) :
    Fifo P c (masks.foldl (setMask ch i) l) := by
  induction masks generalizing l with
  | nil => exact h
  | cons m masks ih => exact @ih (l.setMask ch i m) (h.of_eq rfl rfl rfl)

theorem mux (h : Fifo P c l) (hc : isData c = true) : Fifo P c (l.act .mux) := by
  obtain ⟨w, hw, -⟩ := mxMux_out l.bufOut l.chanOut
  refine h.of_eq rfl ?_ rfl
  have hdata := hw.muxed.data (l.wire.dec.after l.bufOut.unread) c hc
  show chanBytes c (l.wire.dec.slots (mxMux l.bufOut l.chanOut).1.unread) ++ _ = _
  rw [hw.unread, RefDec.slots, Mealy.out_append, chanBytes_append, List.append_assoc]
  exact congrArg (chanBytes c (l.wire.dec.slots l.bufOut.unread) ++ ·) hdata

theorem write (h : Fifo P c l) (n : Nat) : Fifo P c (l.act (.write n)) := by
  obtain ⟨stale, hs, heq⟩ := h
  refine ⟨stale, hs, ?_⟩
  have hbytes : chanBytes c (l.wire.dec.slots (l.bufOut.unread.take n)) ++
      chanBytes c ((l.wire.dec.after (l.bufOut.unread.take n)).slots (l.bufOut.unread.drop n)) =
        chanBytes c (l.wire.dec.slots l.bufOut.unread) := by
    rw [← chanBytes_append, RefDec.slots, RefDec.slots, ← Mealy.out_append, List.take_append_drop]
  show chanBytes c (l.wire.slots ++ l.wire.dec.slots (l.bufOut.unread.take n)) ++
    (chanBytes c ((l.wire.dec.after (l.bufOut.unread.take n)).slots
      (l.bufOut.consume (l.bufOut.unread.take n).length).unread) ++ (l.chanOut c).unread) =
    stale ++ l.wire.queued c
  rw [Buffer.unread_consume_take, chanBytes_append, List.append_assoc,
    ← List.append_assoc (chanBytes c (l.wire.dec.slots (l.bufOut.unread.take n))), hbytes, ← heq]
  rfl

/-- The law survives an act; at a connect `P` is asked of what is on its way. -/
theorem act (hc : isData c = true) (h : Fifo P c l) {r : Router} {e : RouterEv} {a : LinkAct}
    (hok : LinkOk r e l a) (hP : a = .online → P (l.pending c)) : Fifo P c (l.act a) := by
  cases a with
  | queue ch p => exact h.queue hok.2.2.1
  | take ch b =>
    have hne : c ≠ ch := by
      rintro rfl
      have hmh : c.isMh = false := hok
      rw [isMh_of_isData hc] at hmh
      exact absurd hmh (by decide)
    refine h.of_eq rfl ?_ rfl
    show _ ++ (upd l.chanOut ch b c).unread = _
    rw [upd_of_ne _ _ hne]
    rfl
  | addProducer ch => exact h.of_eq rfl rfl rfl
  | remProducer ch i =>
    have herase : Fifo P c (l.erase ch i) := h.of_eq rfl rfl rfl
    show Fifo P c (if _ then _ else _)
    split_ifs
    · exact herase.push
    · exact herase
  | holds ch i masks => exact (h.setMasks ch i masks).push
  | mux => exact h.mux hc
  | write n => exact h.write n
  | offline => exact h.drop.of_eq rfl rfl rfl
  | online =>
    refine ⟨l.pending c, hP rfl, ?_⟩
    show [] ++ (chanBytes c (l.wire.dec.slots l.drop.bufOut.unread) ++ (l.drop.chanOut c).unread) =
      l.pending c ++ []
    rw [drop_chanOut, drop_bufOut, List.nil_append, List.append_nil]
    rfl

end Fifo

end Link

namespace Router

/-- An invariant of the link of a run: it holds at the start and the acts of every step keep it. -/
theorem runs_link {ok : Router → RouterEv → Prop} {I : Link → Prop}
    (hact : ∀ r e, ok r e → ∀ l a, LinkOk r e l a → I l → I (l.act a)) {hasFlags : Bool}
    (h : I (mhrCreate hasFlags).link) {evs : List RouterEv}
    (hok : Run.StepsOk step ok (mhrCreate hasFlags) evs) : I (runs hasFlags evs).link := by
  refine @Run.run_inv_of_ok _ _ step ok (fun r => I r.link) ?_ _ _ h hok
  intro r e hI he
  obtain ⟨acts, hlink, hacts⟩ := link_step r e
  rw [hlink]
  refine Run.run_inv_of_ok ?_ hI hacts
  intro l a hl ha
  exact hact r e he l a ha hl

/-- Over every run a data channel loses nothing, whatever the connects. -/
theorem runs_fifo (hasFlags : Bool) (evs : List RouterEv) {c : Channel} (hc : isData c = true) :
    (runs hasFlags evs).link.Fifo (fun _ => True) c := by
  refine runs_link ?_ ?_ (Run.StepsOk.of_forall (fun _ _ => trivial) _ evs)
  · intro r e _ l a ha h
    exact h.act hc ha fun _ => trivial
  · exact ⟨[], trivial, rfl⟩

end Router

end Mhuxd
