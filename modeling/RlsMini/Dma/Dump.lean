import RlsMini.Dma.Receive

/-!
# The dump file

`wait_for_transfer` saves a buffer after `FINISH_XFER` has given it back and
before `run` starts it again, so what it saves is what the transfer has
delivered.  `Delivers d message` says that transfer `k` delivers `message k`;
what the driver does to a buffer in flight stays arbitrary.

Turn `n` of the thread appends the lines of message `n` to the dump, and the
whole dump reads back as the saved prefixes in order.
-/

namespace RlsMini.Dma

open RlsMini.Hex

/-- The `k`-th transfer started receives the `k`-th message. -/
def Delivers (d : ProxyDriver) (message : Nat → Nat → UInt32) : Prop :=
  ∀ k h old, d.deliver k h old = halfOf (message k) h

/-- The saved words of the first `n` messages. -/
def savedWords (nSamps : Int32) (message : Nat → Nat → UInt32) (n : Nat) : List Nat :=
  (List.range n).flatMap fun k => (savedPrefix nSamps (message k)).map UInt32.toNat

theorem savedWords_succ (nSamps : Int32) (message : Nat → Nat → UInt32) (n : Nat) :
    savedWords nSamps message (n + 1) =
      savedWords nSamps message n ++ (savedPrefix nSamps (message n)).map UInt32.toNat := by
  simp [savedWords, List.range_succ]

/-- A saved word has eight hex digits. -/
theorem savedWords_lt {nSamps : Int32} {message : Nat → Nat → UInt32} {n w : Nat}
    (hw : w ∈ savedWords nSamps message n) : w < 16 ^ 8 := by
  obtain ⟨k, -, hk⟩ := List.mem_flatMap.mp hw
  obtain ⟨word, -, rfl⟩ := List.mem_map.mp hk
  exact word.toNat_lt

variable {d : ProxyDriver} {message : Nat → Nat → UInt32} {size total first : Nat} {s : Sys}

/-- `run` writes to the dump file only while it waits. -/
theorem run_dump (d : ProxyDriver) (s : Sys) :
    (s.run d).2.dump = (s.waitForTransfer d).2.dump := by
  simp only [Sys.run]
  split
  · rfl
  · split <;> rfl

/-- The buffer that `FINISH_XFER` gives back holds the message of the oldest
transfer, and it is no longer in flight. -/
theorem Serves.finish_word {count : Nat} (h : Serves size first (count + 1) s)
    (hid : s.ch.bufferId.toInt = (first % size : Nat)) (hfinishes : s.proxy.finishes = first)
    (hok : d.status first = .PROXY_NO_ERROR) (hdeliver : Delivers d message) :
    (s.finishXfer d).2.proxy.busy s.ch.bufferId.toInt = false ∧
      ∀ w, w < 928 →
        (s.finishXfer d).2.proxy.ram.word s.ch.bufferId.toInt w = message first w := by
  have hbusy := h.busy first (Nat.le_refl _) (by omega)
  have howner := h.owner first (Nat.le_refl _) (by omega)
  have hok' : d.status s.proxy.finishes = .PROXY_NO_ERROR := by rw [hfinishes]; exact hok
  rw [← hid] at hbusy howner
  constructor
  · show (s.proxy.finishXfer d s.ch.bufferId.toInt).busy s.ch.bufferId.toInt = false
    rw [Proxy.finishXfer_busy hok', if_pos rfl]
  · intro w hw
    refine Proxy.finishXfer_word hok' hbusy ?_ hw
    intro i old
    rw [howner]
    exact hdeliver first i old

/-- One turn appends the lines of one message. -/
theorem Serves.run_text {count : Nat} (h : Serves size first (count + 1) s)
    (hid : s.ch.bufferId.toInt = (first % size : Nat)) (hfinishes : s.proxy.finishes = first)
    (hok : d.status first = .PROXY_NO_ERROR) (hdeliver : Delivers d message)
    (hsave : s.obj.flagSaveBuf = true) (hfile : s.obj.dumpFile = true)
    (hlow : 0 ≤ savedLength s.obj.nSampsPerBuf (message first))
    (hfit : savedLength s.obj.nSampsPerBuf (message first) ≤ 928) :
    (s.run d).2.dump.text = s.dump.text ++
      (savedPrefix s.obj.nSampsPerBuf (message first)).flatMap fun w => hexLine 8 w.toNat := by
  obtain ⟨hidle, hwords⟩ := h.finish_word hid hfinishes hok hdeliver
  have hok' : d.status s.proxy.finishes = .PROXY_NO_ERROR := by rw [hfinishes]; exact hok
  have hwait := waitForTransfer_ok h.inProgressCount_ne_zero hok'
  have hreceived : s.received d = (s.finishXfer d).2.saveReceived d s.ch.bufferId.toInt := by
    rw [Sys.received, if_pos hsave]
  rw [run_dump, hwait]
  show (s.received d).dump.text = _
  rw [hreceived]
  exact saveReceived_text d hidle hfile hwords hlow hfit

section Thread

variable (h : s.Ready) (hN : 1 ≤ s.obj.numTransfers)
  (hok : ∀ n, d.status n = .PROXY_NO_ERROR) (hdeliver : Delivers d message)
  (hsave : s.obj.flagSaveBuf = true) (hfile : s.obj.dumpFile = true)
  (hdump : s.dump.text = [])
  (hfit : ∀ k, k < s.obj.numTransfers.toInt.toNat →
    0 ≤ savedLength s.obj.nSampsPerBuf (message k) ∧
      savedLength s.obj.nSampsPerBuf (message k) ≤ 928)

include h hN hok hdeliver hsave hfile hdump hfit

/-- After `n` turns the dump holds the first `n` messages. -/
theorem Sys.Ready.thread_text {n : Nat} (hn : n ≤ s.obj.numTransfers.toInt.toNat) :
    (s.thread d n).2.obj = s.obj ∧
      (s.thread d n).2.dump.text =
        (savedWords s.obj.nSampsPerBuf message n).flatMap (hexLine 8) := by
  induction n with
  | zero =>
      have hbegin := begin_frame d s
      refine ⟨hbegin.obj, ?_⟩
      show (s.begin d).dump.text = _
      rw [hbegin.dump, hdump]
      rfl
  | succ n ih =>
      obtain ⟨hobj, htext⟩ := ih (by omega)
      obtain ⟨hgo, hreceiving⟩ := h.thread_receiving hN hok (n := n) hn
      obtain ⟨hlow, hhigh⟩ := hfit n hn
      have hrun := (hreceiving.serves_succ h.one_le).run_text hreceiving.bufferId
        hreceiving.finishes (hok n) hdeliver (by rw [hobj]; exact hsave) (by rw [hobj]; exact hfile)
        (by rw [hobj]; exact hlow) (by rw [hobj]; exact hhigh)
      rw [thread_succ_of_running hgo]
      refine ⟨by rw [run_obj, hobj], ?_⟩
      rw [hrun, htext, hobj, savedWords_succ, List.flatMap_append, List.flatMap_map]

/-- No message is lost, duplicated, reordered or overwritten: when the thread
has stopped, the dump reads back as the saved prefixes of all the messages in
order. -/
theorem dump_holds_every_message (n : Nat) (hn : s.obj.numTransfers.toInt.toNat ≤ n) :
    (s.thread d n).1 = true ∧
      readHexLines (s.thread d n).2.dump.text =
        some (savedWords s.obj.nSampsPerBuf message s.obj.numTransfers.toInt.toNat) := by
  obtain ⟨hstop, -⟩ := h.thread_last hN hok
  obtain ⟨-, htext⟩ :=
    h.thread_text hN hok hdeliver hsave hfile hdump hfit (Nat.le_refl _)
  rw [thread_of_stopped hn hstop, htext]
  exact ⟨hstop, readHexLines_hexLines _ _ fun w hw => savedWords_lt hw⟩

end Thread

/-- Message `k`: a detection message with one detection when `k` is even, a
bypass message when it is odd. -/
def alternating (k w : Nat) : UInt32 :=
  match w with
  | 5 => if k % 2 = 0 then TP_WORK <<< 16 else TP_BYPASS <<< 16
  | 7 => 1
  | w => UInt32.ofNat (100 * k + w)

/-- Seven messages of the two kinds over three buffers. -/
theorem dump_holds_every_message_alternating :
    ((sevenOverThree.setSaveToFile true 9).thread
        (.quiet fun k h _ => halfOf (alternating k) h) 7).1 = true ∧
      readHexLines ((sevenOverThree.setSaveToFile true 9).thread
        (.quiet fun k h _ => halfOf (alternating k) h) 7).2.dump.text =
        some (savedWords 9 alternating 7) :=
  dump_holds_every_message (sevenOverThree_ready.setSaveToFile true 9) (by decide)
    (fun _ => rfl) (fun _ _ _ => rfl) rfl rfl rfl (by decide) 7 (by decide)

end RlsMini.Dma
