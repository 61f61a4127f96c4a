import RlsMini.Dma.Receive
import RlsMini.Samples.SampleFile

/-!
# The transmit loop of `main`

`main` transmits on eight channels.  Every `TX_BUFFER_COUNT` iterations it
reloads all buffers of all channels with one call of
`misc_read_8chs_from_file`; in every iteration it starts a transfer on each
channel and waits for it.  The number of buffers is a parameter here.

`Loaded` is what holds after the reload test of an iteration.  It gives the
words of every buffer, and with them the stream each channel sends; the buffer
that `start_transfer` picks is `counter % buffer_count`, and `counter` is an
`int`.
-/

namespace RlsMini.Dma

open RlsMini.CInt RlsMini.Samples

/-! ## The loop -/

/-- What the loop works on: `dma_channels[k + 1]` for `k = 0..7`, and
`cnt`. -/
structure TxState where
  channels : Fin 8 → Sys
  cnt : Nat

/-- `tx_config` for transmit channel `k`. -/
def txConfig (T : Nat) (k : Fin 8) : ChConfig where
  devnode := "/dev/dma_proxy_tx_ch" ++ toString k.val
  bufferSize := Int32.ofNat BUFFER_SIZE
  bufferCount := Int32.ofNat T

/-- A transmit channel that `init` has opened as `fd` and mapped at `ptr`,
where the mapping holds `ram`. -/
def txChannel (T : Nat) (k : Fin 8) (fd : Int32) (ptr : Nat) (ram : Ram) : Sys :=
  (Sys.init (txConfig T k) fd (some ptr) { proxy := { Proxy.opened with ram := ram } }).2

/-- The eight channels when the loop starts. -/
def txStart (T : Nat) (numTransfers : UInt32) (fd : Fin 8 → Int32) (ptr : Fin 8 → Nat)
    (ram : Fin 8 → Ram) : TxState where
  channels k := (txChannel T k (fd k) (ptr k) (ram k)).setNumTransfers numTransfers.toInt32
  cnt := 0

section Loop

variable (d : Fin 8 → ProxyDriver) (file : Nat → Option (List Char)) (T : Nat)

/-- The reload.  `current_buffers[k]` is the first buffer of channel `k`, and
the others lie behind it.  `file n` is the input file as reload `n` finds
it. -/
def reload (st : TxState) : TxState where
  channels k :=
    let buffers := fun k => (st.channels k).proxy.ram
    let ram := (miscRead8chsFromFile (file st.cnt) buffers (BUFFER_SIZE * T)
      (BUFFER_SIZE / 4 * T * st.cnt)).2 k
    { st.channels k with proxy := { (st.channels k).proxy with ram := ram } }
  cnt := st.cnt + 1

/-- Iteration `i` up to its `START_XFER` calls. -/
def reloadIfDue (i : Nat) (st : TxState) : TxState :=
  if i % T = 0 then reload file T st else st

/-- The transfers of an iteration. -/
def transmit (st : TxState) : TxState :=
  { st with
    channels := fun k => ((st.channels k).startTransfer (d k) |>.waitForTransfer (d k)).2 }

/-- The state before iteration `i`. -/
def txLoop (st : TxState) : (i : Nat) → TxState
  | 0 => st
  | i + 1 => transmit d (reloadIfDue file T i (txLoop st i))

/-- The state in which iteration `i` issues its `START_XFER` calls. -/
def txReady (st : TxState) (i : Nat) : TxState := reloadIfDue file T i (txLoop d file T st i)

end Loop

/-! ## The stream -/

/-- A sample as a word: the real part is the low half. -/
def sampleWord (s : Sample) : UInt32 := joinHalves s.re s.im

/-- The `START_XFER` of iteration `i` on channel `k` is number `i`, names
buffer `i % T`, and that buffer holds the rows from `928 * i` on of the file's
column `7 - k`. -/
def SendsRows (d : Fin 8 → ProxyDriver) (text : List Char) (T : Nat) (st : TxState) (i : Nat)
    (k : Fin 8) : Prop :=
  ∀ s, s = (txReady d (fun _ => some text) T st i).channels k →
    s.calls.countP Call.isStart = i ∧
    (s.startTransfer (d k)).calls = s.calls ++ [.start (i % T : Nat)] ∧
    ∀ w, w < 928 → (s.startTransfer (d k)).proxy.ram.word (i % T : Nat) w =
      sampleWord (fileRow text (928 * i + w) k.rev)

/-- A driver that only reads the buffers, as the one of a transmit channel
does. -/
structure ReadsOnly (d : ProxyDriver) : Prop where
  deliver : ∀ k h old, d.deliver k h old = old
  scribble : ∀ clock i old, d.scribble clock i old = old

namespace Proxy

variable {d : ProxyDriver} {p : Proxy}

theorem tick_ram (h : ReadsOnly d) : (p.tick d).ram = p.ram := by
  funext i
  simp only [tick, h.scribble, ite_self]

theorem startXfer_ram (h : ReadsOnly d) (b : Int) : (p.startXfer d b).ram = p.ram :=
  tick_ram h

theorem finishXfer_ram (h : ReadsOnly d) (b : Int) : (p.finishXfer d b).ram = p.ram := by
  simp only [finishXfer]
  split
  · funext i
    simp only [h.deliver, ite_self, tick_ram h]
  · exact tick_ram h

end Proxy

/-! ## One transfer -/

/-- A channel that has completed `i` transfers, with nothing in flight. -/
structure Sent (T i : Nat) (s : Sys) : Prop where
  counter : s.ch.counter = Int32.ofNat i
  inProgressCount : s.ch.inProgressCount = 0
  bufferCount : s.ch.bufferCount = Int32.ofNat T
  flagSaveBuf : s.obj.flagSaveBuf = false
  starts : s.calls.countP Call.isStart = i

/-- A transfer completes and leaves the words of the channel alone. -/
theorem Sent.transfer {d : ProxyDriver} {T i : Nat} {s : Sys} (h : Sent T i s)
    (hreads : ReadsOnly d) (hok : ∀ n, d.status n = .PROXY_NO_ERROR) :
    Sent T (i + 1) ((s.startTransfer d).waitForTransfer d).2 ∧
      ((s.startTransfer d).waitForTransfer d).2.proxy.ram = s.proxy.ram := by
  have hprogress : (s.startTransfer d).ch.inProgressCount ≠ 0 := by
    show s.ch.inProgressCount + 1 ≠ 0
    rw [h.inProgressCount]
    decide
  have hreceived : (s.startTransfer d).received d = ((s.startTransfer d).finishXfer d).2 := by
    have hflag : (s.startTransfer d).obj.flagSaveBuf = false := h.flagSaveBuf
    rw [Sys.received, hflag]
    rfl
  rw [waitForTransfer_ok hprogress (hok _), hreceived]
  refine ⟨⟨?_, ?_, h.bufferCount, h.flagSaveBuf, ?_⟩, ?_⟩
  · show s.ch.counter + 1 = Int32.ofNat (i + 1)
    rw [h.counter, Int32.ofNat_add]
    rfl
  · show s.ch.inProgressCount + 1 - 1 = 0
    rw [h.inProgressCount]
    decide
  · simp [Sys.startTransfer, Sys.finishXfer, Call.isStart, h.starts, List.countP_cons]
  · show ((s.startTransfer d).proxy.finishXfer d _).ram = s.proxy.ram
    rw [Proxy.finishXfer_ram hreads]
    exact Proxy.startXfer_ram hreads _

/-! ## The buffers -/

/-- The channels hold the rows from `928 * T * q` on, in all their buffers. -/
def Holds (text : List Char) (T q : Nat) (st : TxState) : Prop :=
  ∀ (k : Fin 8) (h : Nat), h < 1856 * T →
    (st.channels k).proxy.ram h = (fileRow text (928 * T * q + h / 2)).half k h

/-- What holds when iteration `i` issues its `START_XFER` calls. -/
structure Loaded (text : List Char) (T i : Nat) (st : TxState) : Prop where
  cnt : st.cnt = i / T + 1
  holds : Holds text T (i / T) st
  sent : ∀ k, Sent T i (st.channels k)

/-- What holds before iteration `i`: the buffers are current unless a reload
is due. -/
structure Due (text : List Char) (T i : Nat) (st : TxState) : Prop where
  cnt : st.cnt = if i % T = 0 then i / T else i / T + 1
  holds : i % T ≠ 0 → Holds text T (i / T) st
  sent : ∀ k, Sent T i (st.channels k)

section Loop

variable {d : Fin 8 → ProxyDriver} {text : List Char} {T i : Nat} {st : TxState}

theorem reload_holds : Holds text T st.cnt (reload (fun _ => some text) T st) := by
  intro k h hh
  have hbytes : BUFFER_SIZE * T / 2 = 1856 * T := by
    simp only [BUFFER_SIZE]
    omega
  have hwords : BUFFER_SIZE / 4 * T * st.cnt = 928 * T * st.cnt := by
    simp only [BUFFER_SIZE]
  simp only [reload]
  rw [miscRead8chsFromFile_half _ _ _ _ _ (by omega), if_pos (by omega), hwords]

theorem Due.reloadIfDue (h : Due text T i st) :
    Loaded text T i (reloadIfDue (fun _ => some text) T i st) := by
  unfold Dma.reloadIfDue
  have hcnt := h.cnt
  split
  · rename_i hdue
    rw [if_pos hdue] at hcnt
    have hholds : Holds text T st.cnt (reload (fun _ => some text) T st) := reload_holds
    rw [hcnt] at hholds
    refine ⟨by simp only [reload, hcnt], hholds, fun k => ?_⟩
    exact ⟨(h.sent k).counter, (h.sent k).inProgressCount, (h.sent k).bufferCount,
      (h.sent k).flagSaveBuf, (h.sent k).starts⟩
  · rename_i hdue
    rw [if_neg hdue] at hcnt
    exact ⟨hcnt, h.holds hdue, h.sent⟩

theorem Loaded.transmit (h : Loaded text T i st) (hreads : ∀ k, ReadsOnly (d k))
    (hok : ∀ k n, (d k).status n = .PROXY_NO_ERROR) :
    Due text T (i + 1) (transmit d st) where
  cnt := by
    show st.cnt = _
    rw [h.cnt]
    split
    · rename_i hdue
      rw [Nat.succ_div_of_mod_eq_zero hdue]
    · rename_i hdue
      rw [Nat.succ_div_of_mod_ne_zero hdue]
  holds := by
    intro hdue k j hj
    show (((st.channels k).startTransfer (d k)).waitForTransfer (d k)).2.proxy.ram j = _
    rw [((h.sent k).transfer (hreads k) (hok k)).2, Nat.succ_div_of_mod_ne_zero hdue]
    exact h.holds k j hj
  sent k := ((h.sent k).transfer (hreads k) (hok k)).1

/-- Every iteration finds its buffers loaded. -/
theorem txReady_loaded (hstart : Due text T 0 st)
    (hreads : ∀ k, ReadsOnly (d k)) (hok : ∀ k n, (d k).status n = .PROXY_NO_ERROR) (i : Nat) :
    Loaded text T i (txReady d (fun _ => some text) T st i) := by
  unfold txReady
  apply Due.reloadIfDue
  induction i with
  | zero => exact hstart
  | succ i ih => exact ih.reloadIfDue.transmit hreads hok

/-- The words of the buffer that belongs to iteration `i`. -/
theorem Loaded.word (h : Loaded text T i st) (hT : 1 ≤ T) (k : Fin 8) {w : Nat} (hw : w < 928) :
    (st.channels k).proxy.ram.word (i % T : Nat) w =
      sampleWord (fileRow text (928 * i + w) k.rev) := by
  have hslot : i % T < T := Nat.mod_lt _ hT
  have hroom : 1856 * (i % T) + 1856 ≤ 1856 * T := by
    have := Nat.mul_le_mul_left 1856 hslot
    omega
  have hrow : 928 * T * (i / T) + (928 * (i % T) + w) = 928 * i + w := by
    rw [← Nat.add_assoc, Nat.mul_assoc, ← Nat.mul_add, Nat.div_add_mod]
  have hhalf : ∀ j, j < 1856 → (st.channels k).proxy.ram (halfIndex (i % T : Nat) j) =
      (fileRow text (928 * T * (i / T) + (1856 * (i % T) + j) / 2)).half k
        (1856 * (i % T) + j) := by
    intro j hj
    rw [← h.holds k (1856 * (i % T) + j) (by omega)]
    simp only [halfIndex, halfwordsPerBuffer]
    push_cast
    rfl
  have hlow : (1856 * (i % T) + 2 * w) / 2 = 928 * (i % T) + w := by omega
  have hhigh : (1856 * (i % T) + (2 * w + 1)) / 2 = 928 * (i % T) + w := by omega
  rw [Ram.word, hhalf _ (by omega), hhalf _ (by omega), hlow, hhigh, hrow]
  have heven : (1856 * (i % T) + 2 * w) % 2 = 0 := by omega
  have hodd : ¬ (1856 * (i % T) + (2 * w + 1)) % 2 = 0 := by omega
  rw [Row.half, Row.half, if_pos heven, if_neg hodd]
  rfl

end Loop

/-! ## The buffer that is started -/

/-- `counter % buffer_count` is the buffer of transfer `i` as long as `counter`
has not passed `INT_MAX`. -/
theorem startIndex_eq_iff {T i : Nat} (hT : 1 ≤ T) (hmax : T < 2 ^ 31) (hi : i < 2 ^ 32) :
    (Int32.ofNat i % Int32.ofNat T).toInt = (i % T : Nat) ↔
      T = 1 ∨ i < 2 ^ 31 ∨ (T ∣ i ∧ T ∣ 2 ^ 32 - i) := by
  rw [Int32.toInt_mod, Int32.toInt_ofNat_of_lt hmax]
  rcases Nat.lt_or_ge i (2 ^ 31) with hlow | hhigh
  · rw [Int32.toInt_ofNat_of_lt hlow, ← Int.ofNat_tmod]
    exact iff_of_true rfl (Or.inr (Or.inl hlow))
  · have hwrap : (Int32.ofNat i).toInt = -((2 ^ 32 - i : Nat) : Int) := by
      rw [Int32.toInt_ofNat', Int.bmod_def]
      have hsize : Int32.size = 4294967296 := rfl
      rw [hsize]
      omega
    rw [hwrap, Int.neg_tmod, ← Int.ofNat_tmod]
    have hzero : -(((2 ^ 32 - i) % T : Nat) : Int) = (i % T : Nat) ↔
        i % T = 0 ∧ (2 ^ 32 - i) % T = 0 := by omega
    rw [hzero, ← Nat.dvd_iff_mod_eq_zero, ← Nat.dvd_iff_mod_eq_zero]
    constructor
    · intro h
      exact Or.inr (Or.inr h)
    · rintro (rfl | hlt | h)
      · exact ⟨Nat.one_dvd _, Nat.one_dvd _⟩
      · omega
      · exact h

/-- The indices of a whole run. -/
theorem forall_startIndex_iff {T n : Nat} (hT : 1 ≤ T) (hmax : T < 2 ^ 31) (hn : n < 2 ^ 32) :
    (∀ i, i < n → (Int32.ofNat i % Int32.ofNat T).toInt = (i % T : Nat)) ↔
      T = 1 ∨ n ≤ 2 ^ 31 ∨ (T ∣ 2 ^ 31 ∧ n ≤ 2 ^ 31 + 1) := by
  constructor
  · intro h
    by_cases hone : T = 1
    · exact Or.inl hone
    rcases Nat.lt_or_ge (2 ^ 31) n with hlong | hshort
    · refine Or.inr (Or.inr ?_)
      -- `counter` is `INT_MIN` in iteration `2 ^ 31`.
      have hfirst := (startIndex_eq_iff hT hmax (by omega)).mp (h (2 ^ 31) hlong)
      have hdvd : T ∣ 2 ^ 31 := by
        rcases hfirst with h' | h' | h'
        · exact absurd h' hone
        · omega
        · exact h'.1
      refine ⟨hdvd, ?_⟩
      by_contra hmore
      have hsecond := (startIndex_eq_iff hT hmax (by omega)).mp (h (2 ^ 31 + 1) (by omega))
      rcases hsecond with h' | h' | h'
      · exact hone h'
      · omega
      · have hdvd_one : T ∣ 1 := (Nat.dvd_add_right hdvd).mp h'.1
        exact hone (Nat.dvd_one.mp hdvd_one)
    · exact Or.inr (Or.inl hshort)
  · intro h i hi
    rw [startIndex_eq_iff hT hmax (by omega)]
    rcases h with hone | hshort | ⟨hdvd, hlong⟩
    · exact Or.inl hone
    · exact Or.inr (Or.inl (by omega))
    · rcases Nat.lt_or_ge i (2 ^ 31) with hlow | hhigh
      · exact Or.inr (Or.inl hlow)
      · have heq : i = 2 ^ 31 := by omega
        have hrest : 2 ^ 32 - i = 2 ^ 31 := by omega
        exact Or.inr (Or.inr ⟨heq ▸ hdvd, hrest ▸ hdvd⟩)

/-! ## The whole run -/

theorem txChannel_ready {T : Nat} (k : Fin 8) {fd : Int32} (ptr : Nat) (ram : Ram) (hT : 1 ≤ T)
    (hmax : T < 2 ^ 31) (hfd : 1 ≤ fd) : (txChannel T k fd ptr ram).Ready := by
  have hcount : 1 ≤ (txConfig T k).bufferCount := by
    have hvalue : (txConfig T k).bufferCount.toInt = T := Int32.toInt_ofNat_of_lt hmax
    rw [Int32.le_iff_toInt_le, Int32.toInt_one, hvalue]
    omega
  exact init_ready hcount hfd rfl rfl

theorem txStart_due (text : List Char) {T : Nat} (numTransfers : UInt32) {fd : Fin 8 → Int32}
    (ptr : Fin 8 → Nat) (ram : Fin 8 → Ram) (hT : 1 ≤ T) (hmax : T < 2 ^ 31)
    (hfd : ∀ k, 1 ≤ fd k) : Due text T 0 (txStart T numTransfers fd ptr ram) where
  cnt := by
    rw [Nat.zero_mod, if_pos rfl, Nat.zero_div]
    rfl
  holds := fun hdue => absurd (Nat.zero_mod T) hdue
  sent k := by
    have hready := (txChannel_ready k (ptr k) (ram k) hT hmax (hfd k)).setNumTransfers
      numTransfers.toInt32
    obtain ⟨hsize, hobj⟩ : (txChannel T k (fd k) (ptr k) (ram k)).ch.bufferCount = Int32.ofNat T ∧
        (txChannel T k (fd k) (ptr k) (ram k)).obj = { config := txConfig T k } :=
      init_bufferCount_obj (hfd k)
    constructor
    · exact hready.counter
    · exact hready.inProgressCount
    · exact hsize
    · show (txChannel T k (fd k) (ptr k) (ram k)).obj.flagSaveBuf = false
      rw [hobj]
    · show List.countP _ ((txChannel T k (fd k) (ptr k) (ram k)).setNumTransfers _).calls = 0
      rw [hready.calls]
      rfl

/-- Once the buffers are right, all that can go wrong is the index. -/
theorem sendsRows_iff {d : Fin 8 → ProxyDriver} {text : List Char} {T : Nat} {st : TxState}
    (hstart : Due text T 0 st) (hT : 1 ≤ T) (hreads : ∀ k, ReadsOnly (d k))
    (hok : ∀ k n, (d k).status n = .PROXY_NO_ERROR) (i : Nat) (k : Fin 8) :
    SendsRows d text T st i k ↔ (Int32.ofNat i % Int32.ofNat T).toInt = (i % T : Nat) := by
  have hloaded := txReady_loaded hstart hreads hok i
  have hsent := hloaded.sent k
  constructor
  · intro hrows
    obtain ⟨-, hcall, -⟩ := hrows _ rfl
    simp only [Sys.startTransfer, hsent.counter, hsent.bufferCount] at hcall
    have hlast := List.append_cancel_left hcall
    rw [List.cons.injEq, Call.start.injEq] at hlast
    exact hlast.1
  · rintro hindex s rfl
    refine ⟨hsent.starts, ?_, ?_⟩
    · simp only [Sys.startTransfer, hsent.counter, hsent.bufferCount, hindex]
    · intro w hw
      simp only [Sys.startTransfer]
      rw [Proxy.startXfer_ram (hreads k)]
      exact hloaded.word hT k hw

/-- Every channel sends its column of the file, in order and without a gap,
exactly when the indices of the run do not meet a `counter` beyond
`INT_MAX`. -/
theorem transmit_sends_column_iff (d : Fin 8 → ProxyDriver) (hreads : ∀ k, ReadsOnly (d k))
    (hok : ∀ k n, (d k).status n = .PROXY_NO_ERROR) (text : List Char) (T : Nat) (hT : 1 ≤ T)
    (hmax : T ≤ BUFFER_COUNT) (numTransfers : UInt32) (fd : Fin 8 → Int32) (ptr : Fin 8 → Nat)
    (ram : Fin 8 → Ram) (hfd : ∀ k, 1 ≤ fd k) :
    (∀ i, i < numTransfers.toNat → ∀ k,
      SendsRows d text T (txStart T numTransfers fd ptr ram) i k) ↔
      T = 1 ∨ numTransfers.toNat ≤ 2 ^ 31 ∨
        (T ∣ 2 ^ 31 ∧ numTransfers.toNat ≤ 2 ^ 31 + 1) := by
  have hmax' : T < 2 ^ 31 := by
    simp only [BUFFER_COUNT] at hmax
    omega
  have hstart := txStart_due text numTransfers ptr ram hT hmax' hfd
  rw [← forall_startIndex_iff hT hmax' numTransfers.toNat_lt]
  constructor
  · intro h i hi
    exact (sendsRows_iff hstart hT hreads hok i 0).mp (h i hi 0)
  · intro h i hi k
    exact (sendsRows_iff hstart hT hreads hok i k).mpr (h i hi)

/-- A driver that only reads, without an error. -/
def ProxyDriver.reader : ProxyDriver := .quiet fun _ _ old => old

theorem reader_readsOnly : ReadsOnly ProxyDriver.reader := ⟨fun _ _ _ => rfl, fun _ _ _ => rfl⟩

/-- Three buffers a channel: the last of a thousand transfers on the last
channel. -/
theorem transmit_sends_column_three :
    SendsRows (fun _ => .reader) [] 3
      (txStart 3 1000 (fun _ => 4) (fun _ => 0) fun _ _ => 0) 999 7 :=
  (transmit_sends_column_iff (fun _ => .reader) (fun _ => reader_readsOnly) (fun _ _ => rfl) [] 3
    (by decide) (by decide) 1000 (fun _ => 4) (fun _ => 0) (fun _ _ => 0) (fun _ => by decide)).mpr
    (Or.inr (Or.inl (by decide))) 999 (by decide) 7

/-- Three buffers a channel and `2 ^ 31 + 1` transfers: `counter` has become
negative when the last one is started, and its buffer index with it. -/
theorem transmit_misses_column :
    ¬ ∀ i, i < (2147483649 : UInt32).toNat → ∀ k, SendsRows (fun _ => .reader) [] 3
      (txStart 3 2147483649 (fun _ => 4) (fun _ => 0) fun _ _ => 0) i k := by
  intro h
  have hstart := txStart_due [] 2147483649 (fun _ => 0) (fun _ _ => 0) (by decide : 1 ≤ 3)
    (by decide) (fun _ => (by decide : (1 : Int32) ≤ 4))
  have hindex := (sendsRows_iff hstart (by decide) (fun _ => reader_readsOnly) (fun _ _ => rfl)
    2147483648 0).mp (h 2147483648 (by decide) 0)
  exact absurd hindex (by decide)

end RlsMini.Dma
