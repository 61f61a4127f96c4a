import RlsMini.Regs.AxiMultiplier

/-!
# The test program of the multiplier

`test_axi_multiplier.c` writes every setting, reads it back and prints a line
in red when it gets something else.  It looks at no error.  After a failed
transfer the descriptor is closed, and a getter returns what its local variable
holds: whether a red line is printed then has nothing to do with the device.

`Bench` is the device under the program, with outcomes given in advance for
`open` and the user copies.  `selfTest_silent_iff` says when no red line is
printed, and what is in the registers behind the program.
-/

namespace RlsMini.Regs.AxiMultiplier

/-! ## The program -/

/-- What is printed.  The lines in red are the ones that have failed. -/
inductive Line where
  | version (verMaj verMin : UInt16)
  | testPoint (tp tpGet : UInt32)
  | testPointFailed
  | channel (ch chGet : UInt32)
  | channelFailed
  | multiplier (mult : Int16) (chNum : Nat) (multGet : Int16)
  | multiplierFailed (chNum : Nat)
  deriving DecidableEq, Repr

def Line.Red : Line → Prop
  | .testPointFailed | .channelFailed | .multiplierFailed _ => True
  | .version _ _ | .testPoint _ _ | .channel _ _ | .multiplier _ _ _ => False

/-- What the local variables of the getters hold before they are read into. -/
structure Locals where
  ver : UInt32
  tp : UInt32
  ch : UInt32
  data : (chNum : Nat) → UInt32

section Program

variable {σ : Type} (os : Posix σ)

/-- `axi_multiplier_deinit`. -/
def axiMultiplierDeinit (fd : Int32) (s : σ) : σ := os.close fd s

/-- The loop over the multipliers, with `n` to go from `chNum` on. -/
def testMultipliers (fd : Int32) (mult : Int16) (data : Nat → UInt32) :
    (n chNum : Nat) → σ → List Line × σ
  | 0, _, s => ([], s)
  | n + 1, chNum, s =>
      let s := axiMultiplierSetMult os fd mult (UInt32.ofNat chNum) s
      let (multGet, s) := axiMultiplierGetMult os fd (data chNum) (UInt32.ofNat chNum) s
      let lines := [Line.multiplier mult chNum multGet] ++
        if mult ≠ multGet then [.multiplierFailed chNum] else []
      let (rest, s) := testMultipliers fd mult data n (chNum + 1) s
      (lines ++ rest, s)

/-- The check of the test point. -/
def testTestPoint (fd : Int32) (raw : UInt32) (s : σ) : List Line × σ :=
  let tp : UInt32 := 0
  let s := axiMultiplierSetTp os fd tp s
  let (tpGet, s) := axiMultiplierGetTp os fd raw s
  ([Line.testPoint tp tpGet] ++ if tp ≠ tpGet then [.testPointFailed] else [], s)

/-- The check of the channel. -/
def testChannel (fd : Int32) (ch raw : UInt32) (s : σ) : List Line × σ :=
  let s := axiMultiplierSetCh os fd ch s
  let (chGet, s) := axiMultiplierGetCh os fd raw s
  ([Line.channel ch chGet] ++ if ch ≠ chGet then [.channelFailed] else [], s)

/-- `main` on the descriptor that it has opened. -/
def testSettings (fd : Int32) (mult : Int16) (ch : UInt32) (locals : Locals) (s : σ) :
    List Line × σ :=
  let ver := axiMultiplierGetIpVer os fd locals.ver s
  let tp := testTestPoint os fd locals.tp ver.2.2
  let channel := testChannel os fd ch locals.ch tp.2
  let mults := testMultipliers os fd mult locals.data 8 0 channel.2
  (.version ver.1 ver.2.1 :: (tp.1 ++ (channel.1 ++ mults.1)), mults.2)

/-- `main` behind its arguments: the exit status and what is printed. -/
def testAxiMultiplier (mult : Int16) (ch : UInt32) (locals : Locals) (s : σ) :
    Int32 × List Line × σ :=
  let opened := axiMultiplierInit os s
  if opened.1 ≠ .FD_ERR_NONE then (1, [], opened.2.2)
  else
    let tested := testSettings os opened.2.1 mult ch locals opened.2.2
    (0, tested.1, axiMultiplierDeinit os opened.2.1 tested.2)

end Program

/-! ## The device under test -/

/-- The descriptor, and how many transfers have been asked for. -/
structure Bench where
  stack : Stack
  transfers : Nat := 0

/-- The multiplier with the registers `regs`, before it is opened. -/
def Bench.unopened (regs : Registers) : Bench where
  stack := ⟨Driver.opened regs, .closed⟩

/-- The system calls.  `opens` is the outcome of `open`, and `copies n` bytes
are left over by the user copy of transfer `n`, if it gets that far. -/
def Keeper.benchOs (d : Keeper) (opens : Bool) (copies : Nat → Nat) : Posix Bench where
  openDevice readOnly s :=
    if opens then
      let mode := if readOnly then Mode.readOnly else .readWrite
      (3, { s with stack := ⟨Driver.opened s.stack.file.regs, mode⟩ })
    else (-1, s)
  lseek fd off whence s :=
    let (n, stack) := (axiMultiplier.stackOs 0).lseek fd off whence s.stack
    (n, { s with stack := stack })
  read fd s :=
    let (n, rd, stack) := (axiMultiplier.stackOs (copies s.transfers)).read fd s.stack
    (n, rd, ⟨stack, s.transfers + 1⟩)
  write fd val s :=
    let kept := d.keep s.transfers (Driver.regOff (s.stack.file.position ())) val
    let (n, stack) := (axiMultiplier.stackOs (copies s.transfers)).write fd kept s.stack
    (n, ⟨stack, s.transfers + 1⟩)
  close fd s := { s with stack := (axiMultiplier.stackOs 0).close fd s.stack }

/-- The first `t` copies are whole. -/
def Whole (copies : Nat → Nat) (t : Nat) : Prop := ∀ n, n < t → copies n = 0

instance (copies : Nat → Nat) (t : Nat) : Decidable (Whole copies t) :=
  inferInstanceAs (Decidable (∀ n, n < t → copies n = 0))

theorem whole_succ {copies : Nat → Nat} {t : Nat} :
    Whole copies (t + 1) ↔ Whole copies t ∧ copies t = 0 := by
  constructor
  · intro h
    exact ⟨fun n hn => h n (by omega), h t (by omega)⟩
  · rintro ⟨h, ht⟩ n hn
    rcases Nat.lt_succ_iff_lt_or_eq.mp hn with hlt | rfl
    · exact h n hlt
    · exact ht

/-! ## One access -/

/-- What an access finds when transfer `t` is next. -/
structure Bench.At (copies : Nat → Nat) (s : Bench) (t : Nat) (regs : Registers) : Prop where
  transfers : s.transfers = t
  mode : s.stack.mode = if Whole copies t then .readWrite else .closed
  regs : s.stack.file.regs = regs
  inRange : ∀ h, axiMultiplier.InRange (s.stack.file.position h)

section Access

variable (d : Keeper) (opens : Bool) {copies : Nat → Nat} (fd : Int32) {s : Bench} {t : Nat}
  {regs : Registers} {off : UInt32}

/-- A write goes through with what the device keeps. -/
theorem regWrite_bench (val off : UInt32) :
    (regWrite (d.benchOs opens copies) fd val off s).2 =
      ⟨axiMultiplier.accessStep s.stack
        (.write
          (d.keep s.transfers
            (Driver.regOff ((axiMultiplier.seek s.stack off).file.position ())) val)
          off (copies s.transfers)),
        s.transfers + 1⟩ := by
  have hseek : ((axiMultiplier.stackOs 0).lseek fd (Int64.ofNat off.toNat) SEEK_SET s.stack).2 =
      axiMultiplier.seek s.stack off := Driver.lseek_eq fd s.stack off
  rw [regWrite_snd, ← hseek]
  show _ = Bench.mk
    (regWrite (axiMultiplier.stackOs (copies s.transfers)) 0 _ off s.stack).2 _
  rw [regWrite_snd]
  exact (apply_ite (Bench.mk · (s.transfers + 1)) _ _ _).symm

/-- A read goes through. -/
theorem regRead_bench (raw off : UInt32) :
    (regRead (d.benchOs opens copies) fd raw off s).2 =
      ((axiMultiplier.access s.stack (.read raw off (copies s.transfers))).2.1,
        ⟨axiMultiplier.accessStep s.stack (.read raw off (copies s.transfers)),
          s.transfers + 1⟩) := by
  have hlift : ∀ (p : Prop) [Decidable p] (x y : FdErr × UInt32 × Stack),
      (if p then (x.1, x.2.1, (⟨x.2.2, s.transfers + 1⟩ : Bench))
        else (y.1, y.2.1, ⟨y.2.2, s.transfers + 1⟩)) =
      let r := if p then x else y
      (r.1, r.2.1, ⟨r.2.2, s.transfers + 1⟩) := by
    intro p _ x y
    split <;> rfl
  exact congrArg Prod.snd (hlift _ (_, _, _) (_, _, _))

/-- A register other than `IP_VER` is written as long as all copies are
whole. -/
theorem Bench.At.write (h : s.At copies t regs) (val : UInt32)
    (hreg : axiMultiplier.IsReg off.toNat) (hoff : off.toNat ≠ 0) :
    (axiMultiplierWrite (d.benchOs opens copies) fd val off s).2.At copies (t + 1)
      (if Whole copies (t + 1) then regs.set off (d.keep t off val) else regs) := by
  show (regWrite (d.benchOs opens copies) fd val off s).2.At _ _ _
  rw [regWrite_bench, h.transfers]
  obtain ⟨hmode, hregs⟩ := Driver.accessStep_write h.inRange
    (d.keep t (Driver.regOff ((axiMultiplier.seek s.stack off).file.position ())) val)
    (copies t) hreg hoff
  have hrange := Driver.inRange_accessStep h.inRange (.write
    (d.keep t (Driver.regOff ((axiMultiplier.seek s.stack off).file.position ())) val)
    off (copies t))
  by_cases hwhole : Whole copies (t + 1)
  · obtain ⟨hbefore, hcopy⟩ := whole_succ.mp hwhole
    have hopen : s.stack.mode = .readWrite := by rw [h.mode, if_pos hbefore]
    have hposition : Driver.regOff ((axiMultiplier.seek s.stack off).file.position ()) = off := by
      rw [Driver.seek_position (by rw [hopen]; decide) hreg, Driver.regOff_ofNat_toNat]
    rw [if_pos ⟨hopen, hcopy⟩] at hmode hregs
    rw [hposition] at hmode hregs hrange ⊢
    refine ⟨rfl, ?_, ?_, hrange⟩
    · rw [if_pos hwhole]
      exact hmode
    · rw [if_pos hwhole, ← h.regs]
      exact hregs
  · have hnot : ¬ (s.stack.mode = .readWrite ∧ copies t = 0) := by
      rintro ⟨hopen, hcopy⟩
      refine hwhole (whole_succ.mpr ⟨?_, hcopy⟩)
      by_contra hbefore
      rw [h.mode, if_neg hbefore] at hopen
      exact Mode.noConfusion hopen
    rw [if_neg hnot] at hmode hregs
    refine ⟨rfl, ?_, ?_, hrange⟩
    · rw [if_neg hwhole]
      exact hmode
    · rw [if_neg hwhole, ← h.regs]
      exact hregs

/-- A read returns the register as long as all copies are whole, and then the
local variable. -/
theorem Bench.At.read (h : s.At copies t regs) (raw : UInt32)
    (hreg : axiMultiplier.IsReg off.toNat) :
    (axiMultiplierRead (d.benchOs opens copies) fd raw off s).2.1 =
        (if Whole copies (t + 1) then regs off else raw) ∧
      (axiMultiplierRead (d.benchOs opens copies) fd raw off s).2.2.At copies (t + 1) regs := by
  show (regRead (d.benchOs opens copies) fd raw off s).2.1 = _ ∧
    (regRead (d.benchOs opens copies) fd raw off s).2.2.At _ _ _
  rw [regRead_bench, h.transfers]
  obtain ⟨hvalue, hmode, hregs⟩ := Driver.access_read h.inRange raw (copies t) hreg
  have hrange := Driver.inRange_accessStep h.inRange (.read raw off (copies t))
  have hok : (s.stack.mode ≠ .closed ∧ copies t = 0) ↔ Whole copies (t + 1) := by
    rw [whole_succ, h.mode]
    refine and_congr_left fun _ => ?_
    by_cases hbefore : Whole copies t
    · rw [if_pos hbefore]
      exact iff_of_true Mode.noConfusion hbefore
    · rw [if_neg hbefore]
      exact iff_of_false (fun hne => hne rfl) hbefore
  have hopen : Whole copies (t + 1) → s.stack.mode = .readWrite := by
    intro hwhole
    rw [h.mode, if_pos (whole_succ.mp hwhole).1]
  refine ⟨?_, rfl, ?_, hregs.trans h.regs, hrange⟩
  · rw [← h.regs]
    exact hvalue.trans (if_congr hok rfl rfl)
  · rw [hmode]
    by_cases hwhole : Whole copies (t + 1)
    · rw [if_pos (hok.mpr hwhole), if_pos hwhole, hopen hwhole]
    · rw [if_neg (fun hboth => hwhole (hok.mp hboth)), if_neg hwhole]

end Access

/-! ## One check -/

/-- A setting that the program checks. -/
inductive Check where
  | testPoint
  | channel
  | multiplier (chNum : Nat)

/-- The checks in the order of the program. -/
def checks : List Check := .testPoint :: .channel :: (List.range' 0 8).map .multiplier

namespace Check

/-- The register. -/
def addr : Check → UInt32
  | .testPoint => CSR_TEST_POINT_ADDR
  | .channel => CSR_CHANNEL_ADDR
  | .multiplier chNum => CSR_MULT0_ADDR + 4 * UInt32.ofNat chNum

/-- The transfer that writes it; the next one reads it. -/
def transfer : Check → Nat
  | .testPoint => 1
  | .channel => 3
  | .multiplier chNum => 5 + 2 * chNum

variable (mult : Int16) (ch : UInt32)

/-- The word that is written. -/
def word : Check → UInt32
  | .testPoint => 0
  | .channel => ch
  | .multiplier _ => mult.toInt32.toUInt32

/-- What the local variable of the getter holds. -/
def localVar (locals : Locals) : Check → UInt32
  | .testPoint => locals.tp
  | .channel => locals.ch
  | .multiplier chNum => locals.data chNum

/-- The value read back passes. -/
def Passes (raw : UInt32) : Check → Prop
  | .testPoint => (0 : UInt32) = raw
  | .channel => ch = raw
  | .multiplier _ => mult = raw.toUInt16.toInt16

/-- What is printed when `raw` is read back. -/
def report (raw : UInt32) : Check → List Line
  | .testPoint => [Line.testPoint 0 raw] ++ if (0 : UInt32) ≠ raw then [.testPointFailed] else []
  | .channel => [Line.channel ch raw] ++ if ch ≠ raw then [.channelFailed] else []
  | .multiplier chNum =>
      [Line.multiplier mult chNum raw.toUInt16.toInt16] ++
        if mult ≠ raw.toUInt16.toInt16 then [.multiplierFailed chNum] else []

/-- A red line is printed exactly if the value does not pass. -/
theorem forall_report_iff (raw : UInt32) (c : Check) :
    (∀ line ∈ c.report mult ch raw, ¬ line.Red) ↔ c.Passes mult ch raw := by
  have hlines : ∀ (p : Prop) [Decidable p] (line failed : Line), ¬ line.Red → failed.Red →
      ((∀ l ∈ [line] ++ (if ¬ p then [failed] else []), ¬ l.Red) ↔ p) := by
    intro p _ line failed hline hfailed
    by_cases hp : p
    · rw [if_neg (not_not_intro hp), List.append_nil, List.forall_mem_singleton]
      exact iff_of_true hline hp
    · rw [if_pos hp]
      refine iff_of_false (fun hall => hall failed ?_ hfailed) hp
      exact List.mem_append_right _ (List.mem_singleton_self failed)
  cases c with
  | testPoint => exact hlines _ _ _ id trivial
  | channel => exact hlines _ _ _ id trivial
  | multiplier chNum => exact hlines _ _ _ id trivial

/-- The check is of a register that can be written. -/
def OnRegister : Check → Prop
  | .testPoint => True
  | .channel => True
  | .multiplier chNum => chNum < 8

theorem OnRegister.isReg {c : Check} (h : c.OnRegister) :
    axiMultiplier.IsReg c.addr.toNat ∧ c.addr.toNat ≠ 0 := by
  cases c with
  | testPoint => decide
  | channel => decide
  | multiplier chNum =>
      have hlt : chNum < 8 := h
      have hch : (UInt32.ofNat chNum).toNat = chNum :=
        UInt32.toNat_ofNat_of_lt' (by rw [UInt32.size]; omega)
      have hbelow : UInt32.ofNat chNum < 8 := by
        rw [UInt32.lt_iff_toNat_lt, hch]
        exact hlt
      refine ⟨isReg_multAddr ⟨UInt32.ofNat chNum, hbelow⟩, ?_⟩
      have haddr : (Check.multiplier chNum).addr.toNat = _ :=
        toNat_multAddr ⟨UInt32.ofNat chNum, hbelow⟩
      rw [haddr]
      omega

/-- The setting is written and read back: the word that the getter finds. -/
def readBack {σ : Type} (os : Posix σ) (fd : Int32) (locals : Locals) (c : Check) (s : σ) :
    UInt32 × σ :=
  (axiMultiplierRead os fd (c.localVar locals) c.addr
    (axiMultiplierWrite os fd (c.word mult ch) c.addr s).2).2

variable (d : Keeper) (copies : Nat → Nat) (locals : Locals)

/-- What the getter of the check returns. -/
def returned (c : Check) : UInt32 :=
  if Whole copies (c.transfer + 1 + 1) then d.keep c.transfer c.addr (c.word mult ch)
  else c.localVar locals

/-- What the setter of the check makes of the registers. -/
def store (regs : Registers) (c : Check) : Registers :=
  if Whole copies (c.transfer + 1) then regs.set c.addr (d.keep c.transfer c.addr (c.word mult ch))
  else regs

end Check

section Run

variable (d : Keeper) (opens : Bool) {copies : Nat → Nat} (fd : Int32) (mult : Int16)
  (ch : UInt32) (locals : Locals) {s : Bench} {t : Nat} {regs : Registers}

/-- A setting is written and read back. -/
theorem Bench.At.check {c : Check} (h : s.At copies c.transfer regs) (hc : c.OnRegister) :
    (c.readBack mult ch (d.benchOs opens copies) fd locals s).1 =
        c.returned mult ch d copies locals ∧
      (c.readBack mult ch (d.benchOs opens copies) fd locals s).2.At copies (c.transfer + 1 + 1)
        (c.store mult ch d copies regs) := by
  have hwrite := h.write d opens fd (c.word mult ch) hc.isReg.1 hc.isReg.2
  have hread := hwrite.read d opens fd (c.localVar locals) hc.isReg.1
  unfold Check.readBack Check.store Check.returned
  refine ⟨hread.1.trans ?_, hread.2⟩
  by_cases hwhole : Whole copies (c.transfer + 1 + 1)
  · rw [if_pos hwhole, if_pos hwhole, if_pos (whole_succ.mp hwhole).1, Registers.set_self]
  · rw [if_neg hwhole, if_neg hwhole]

end Run

/-! ## The program, check by check -/

/-- The checks, one after the other. -/
def runChecks {σ : Type} (os : Posix σ) (fd : Int32) (mult : Int16) (ch : UInt32)
    (locals : Locals) : List Check → σ → List Line × σ
  | [], s => ([], s)
  | c :: rest, s =>
      let t := c.readBack mult ch os fd locals s
      let more := runChecks os fd mult ch locals rest t.2
      (c.report mult ch t.1 ++ more.1, more.2)

section Program

variable {σ : Type} (os : Posix σ) (fd : Int32) (mult : Int16) (ch : UInt32) (locals : Locals)

theorem runChecks_cons (c : Check) (rest : List Check) (s : σ) :
    runChecks os fd mult ch locals (c :: rest) s =
      let t := c.readBack mult ch os fd locals s
      let more := runChecks os fd mult ch locals rest t.2
      (c.report mult ch t.1 ++ more.1, more.2) := rfl

theorem testTestPoint_eq (s : σ) :
    testTestPoint os fd locals.tp s =
      let t := Check.testPoint.readBack mult ch os fd locals s
      (Check.testPoint.report mult ch t.1, t.2) := rfl

theorem testChannel_eq (s : σ) :
    testChannel os fd ch locals.ch s =
      let t := Check.channel.readBack mult ch os fd locals s
      (Check.channel.report mult ch t.1, t.2) := rfl

theorem testMultipliers_eq (n chNum : Nat) (s : σ) :
    testMultipliers os fd mult locals.data n chNum s =
      runChecks os fd mult ch locals ((List.range' chNum n).map .multiplier) s := by
  induction n generalizing chNum s with
  | zero => rfl
  | succ n ih =>
      rw [List.range'_succ, List.map_cons]
      simp only [testMultipliers, runChecks, ih]
      rfl

theorem axiMultiplierGetIpVer_state (raw : UInt32) (s : σ) :
    (axiMultiplierGetIpVer os fd raw s).2.2 =
      (axiMultiplierRead os fd raw CSR_IP_VER_ADDR s).2.2 := rfl

/-- Behind the version, the program makes its checks. -/
theorem testSettings_eq (s : σ) :
    testSettings os fd mult ch locals s =
      let ver := axiMultiplierGetIpVer os fd locals.ver s
      let tested := runChecks os fd mult ch locals checks ver.2.2
      (.version ver.1 ver.2.1 :: tested.1, tested.2) := by
  unfold testSettings checks
  generalize axiMultiplierGetIpVer os fd locals.ver s = ver
  dsimp only
  rw [testTestPoint_eq os fd mult ch locals, runChecks_cons]
  generalize Check.testPoint.readBack mult ch os fd locals ver.2.2 = tp
  dsimp only
  rw [testChannel_eq os fd mult ch locals, runChecks_cons]
  generalize Check.channel.readBack mult ch os fd locals tp.2 = channel
  dsimp only
  rw [testMultipliers_eq os fd mult ch locals]

end Program

section Run

variable (d : Keeper) (opens : Bool) {copies : Nat → Nat} (fd : Int32) (mult : Int16)
  (ch : UInt32) (locals : Locals) {s : Bench} {regs : Registers}

/-- The checks are of registers, and the transfers of each are those behind
the ones before it, from transfer `t` on. -/
def InOrder : (t : Nat) → List Check → Prop
  | _, [] => True
  | t, c :: rest => c.OnRegister ∧ c.transfer = t ∧ InOrder (t + 1 + 1) rest

theorem inOrder_checks : InOrder 1 checks := by
  simp only [checks, List.range', List.map_cons, List.map_nil, InOrder, Check.OnRegister,
    Check.transfer]
  decide

/-- What the checks print, and what they make of the registers. -/
theorem Bench.At.runChecks {t : Nat} (h : s.At copies t regs) {cs : List Check}
    (hcs : InOrder t cs) :
    (runChecks (d.benchOs opens copies) fd mult ch locals cs s).1 =
        cs.flatMap (fun c => c.report mult ch (c.returned mult ch d copies locals)) ∧
      (runChecks (d.benchOs opens copies) fd mult ch locals cs s).2.At copies
        (t + 2 * cs.length) (cs.foldl (Check.store mult ch d copies) regs) := by
  induction cs generalizing s t regs with
  | nil => exact ⟨rfl, h⟩
  | cons c rest ih =>
      obtain ⟨hc, rfl, hrest⟩ := hcs
      obtain ⟨hvalue, hnext⟩ := h.check d opens fd mult ch locals hc
      obtain ⟨hlines, hend⟩ := ih hnext hrest
      have hcount : c.transfer + 2 * (c :: rest).length =
          c.transfer + 1 + 1 + 2 * rest.length := by
        rw [List.length_cons]
        omega
      rw [hcount, runChecks_cons, List.flatMap_cons, ← hlines, ← hvalue]
      exact ⟨rfl, hend⟩

/-- The descriptor that `main` has opened. -/
theorem Bench.at_opened (regs : Registers) :
    Bench.At copies ⟨⟨Driver.opened regs, .readWrite⟩, 0⟩ 0 regs :=
  ⟨rfl, (if_pos fun _ hn => absurd hn (Nat.not_lt_zero _)).symm, rfl, fun _ => Driver.inRange_zero⟩

variable (copies) in
/-- What is printed on an open descriptor. -/
theorem testSettings_bench (regs : Registers) :
    let s : Bench := ⟨⟨Driver.opened regs, .readWrite⟩, 0⟩
    let tested := testSettings (d.benchOs opens copies) fd mult ch locals s
    (∃ verMaj verMin, tested.1 = .version verMaj verMin :: checks.flatMap fun c =>
        c.report mult ch (c.returned mult ch d copies locals)) ∧
      tested.2.stack.file.regs = checks.foldl (Check.store mult ch d copies) regs := by
  intro s tested
  have hopened : s.At copies 0 regs := Bench.at_opened regs
  have hreg : axiMultiplier.IsReg CSR_IP_VER_ADDR.toNat := by decide
  have hversion := (hopened.read d opens fd locals.ver hreg).2
  rw [← axiMultiplierGetIpVer_state] at hversion
  obtain ⟨hlines, hend⟩ := hversion.runChecks d opens fd mult ch locals inOrder_checks
  have htested : tested = _ := testSettings_eq (d.benchOs opens copies) fd mult ch locals s
  rw [htested]
  dsimp only
  rw [hlines]
  exact ⟨⟨_, _, rfl⟩, hend.regs⟩

end Run

/-! ## The registers -/

section Registers

variable (mult : Int16) (ch : UInt32) (d : Keeper) (copies : Nat → Nat) (regs : Registers)

theorem Check.store_self (c : Check) :
    c.store mult ch d copies regs c.addr =
      if Whole copies (c.transfer + 1) then d.keep c.transfer c.addr (c.word mult ch)
      else regs c.addr := by
  rw [Check.store]
  split
  · exact Registers.set_self ..
  · rfl

theorem Check.store_of_ne {c : Check} {off : UInt32} (h : c.addr ≠ off) :
    c.store mult ch d copies regs off = regs off := by
  rw [Check.store]
  split
  · exact Registers.set_of_ne h.symm regs _
  · rfl

theorem foldl_store_of_ne {cs : List Check} {off : UInt32} (h : ∀ c ∈ cs, c.addr ≠ off) :
    cs.foldl (Check.store mult ch d copies) regs off = regs off := by
  induction cs generalizing regs with
  | nil => rfl
  | cons c rest ih =>
      obtain ⟨hc, hrest⟩ := List.forall_mem_cons.mp h
      rw [List.foldl_cons, ih _ hrest, Check.store_of_ne mult ch d copies regs hc]

/-- No two checks are of one register, so each setting stays. -/
theorem foldl_store_of_mem {cs : List Check} (hcs : cs.Pairwise fun c c' => c.addr ≠ c'.addr)
    {c : Check} (hc : c ∈ cs) :
    cs.foldl (Check.store mult ch d copies) regs c.addr =
      if Whole copies (c.transfer + 1) then d.keep c.transfer c.addr (c.word mult ch)
      else regs c.addr := by
  induction cs generalizing regs with
  | nil => exact absurd hc List.not_mem_nil
  | cons c' rest ih =>
      obtain ⟨hc', hrest⟩ := List.pairwise_cons.mp hcs
      rw [List.foldl_cons]
      rcases List.mem_cons.mp hc with rfl | hin
      · rw [foldl_store_of_ne mult ch d copies _ fun x hx => (hc' x hx).symm, Check.store_self]
      · rw [ih _ hrest hin, Check.store_of_ne mult ch d copies regs (hc' c hin)]

theorem pairwise_checks : checks.Pairwise fun c c' => c.addr ≠ c'.addr := by
  decide

end Registers

/-! ## What the red lines tell -/

section Silent

variable (mult : Int16) (ch : UInt32) (d : Keeper) (copies : Nat → Nat) (locals : Locals)

theorem onRegister_of_mem_checks {c : Check} (hc : c ∈ checks) : c.OnRegister := by
  simp only [checks, List.mem_cons, List.mem_map, List.mem_range'_1] at hc
  rcases hc with rfl | rfl | ⟨chNum, hlt, rfl⟩
  · trivial
  · trivial
  · exact hlt.2

/-- What the device keeps passes, but for a channel with other bits than the
declared ones. -/
theorem Check.passes_keep {c : Check} (hc : c.OnRegister) :
    c.Passes mult ch (d.keep c.transfer c.addr (c.word mult ch)) ↔
      (c = .channel → d.keep 3 CSR_CHANNEL_ADDR ch = ch) := by
  cases c with
  | testPoint =>
      refine iff_of_true ?_ fun h => nomatch h
      exact (d.keep_eq (by decide) 1).symm
  | channel =>
      constructor
      · intro h _
        exact h.symm
      · intro h
        exact (h rfl).symm
  | multiplier chNum =>
      refine iff_of_true ?_ fun h => nomatch h
      have hlt : chNum < 8 := hc
      have hbelow : UInt32.ofNat chNum < 8 := by
        rw [UInt32.lt_iff_toNat_lt, UInt32.toNat_ofNat_of_lt' (by rw [UInt32.size]; omega)]
        exact hlt
      exact (d.keep_mult (fieldMask_multAddr ⟨UInt32.ofNat chNum, hbelow⟩) _ mult).symm

/-- A check passes on what the device keeps, or on a local variable. -/
theorem Check.passes_returned {c : Check} (hc : c.OnRegister) :
    c.Passes mult ch (c.returned mult ch d copies locals) ↔
      (c = .channel → Whole copies 5 → d.keep 3 CSR_CHANNEL_ADDR ch = ch) ∧
        (¬ Whole copies (c.transfer + 2) → c.Passes mult ch (c.localVar locals)) := by
  unfold Check.returned
  by_cases hwhole : Whole copies (c.transfer + 1 + 1)
  · rw [if_pos hwhole, Check.passes_keep mult ch d hc, and_iff_left (absurd hwhole)]
    refine forall_congr' fun hchannel => ?_
    have hfive : Whole copies 5 := by
      rw [hchannel] at hwhole
      exact hwhole
    exact ⟨fun h _ => h, fun h => h hfive⟩
  · rw [if_neg hwhole, and_iff_right, forall_prop_of_true hwhole]
    intro hchannel hfive
    rw [hchannel] at hwhole
    exact absurd hfive hwhole

end Silent

/-- `main` closes the descriptor and leaves the registers alone. -/
theorem axiMultiplierDeinit_bench (d : Keeper) (opens : Bool) (copies : Nat → Nat) (fd : Int32)
    (s : Bench) :
    (axiMultiplierDeinit (d.benchOs opens copies) fd s).stack.file.regs = s.stack.file.regs ∧
      (axiMultiplierDeinit (d.benchOs opens copies) fd s).stack.mode = .closed := ⟨rfl, rfl⟩

/-- `main` on a device that opens. -/
theorem testAxiMultiplier_opened (d : Keeper) (copies : Nat → Nat) (mult : Int16) (ch : UInt32)
    (locals : Locals) (regs : Registers) :
    let r := testAxiMultiplier (d.benchOs true copies) mult ch locals (Bench.unopened regs)
    (∃ verMaj verMin, r.2.1 = .version verMaj verMin :: checks.flatMap fun c =>
        c.report mult ch (c.returned mult ch d copies locals)) ∧
      r.2.2.stack.file.regs = checks.foldl (Check.store mult ch d copies) regs ∧
      r.2.2.stack.mode = .closed := by
  have hinit : axiMultiplierInit (d.benchOs true copies) (Bench.unopened regs) =
      (.FD_ERR_NONE, 3, ⟨⟨Driver.opened regs, .readWrite⟩, 0⟩) := rfl
  have htested := testSettings_bench d true copies 3 mult ch locals regs
  rw [testAxiMultiplier, hinit]
  dsimp only at htested ⊢
  generalize testSettings (d.benchOs true copies) 3 mult ch locals _ = tested at htested ⊢
  obtain ⟨hlines, hregs⟩ := htested
  rw [if_neg fun h => h rfl]
  obtain ⟨hkept, hclosed⟩ := axiMultiplierDeinit_bench d true copies 3 tested.2
  exact ⟨hlines, hkept.trans hregs, hclosed⟩

/-- When the program prints no red line, and what it leaves in the registers.
As long as the transfers succeed, only a channel beyond the declared bits can
fail its check; behind a failed transfer each check is of the local variable of
its getter, and each setting is still the old one. -/
theorem selfTest_silent_iff (d : Keeper) (opens : Bool) (copies : Nat → Nat) (mult : Int16)
    (ch : UInt32) (locals : Locals) (regs : Registers) :
    let r := testAxiMultiplier (d.benchOs opens copies) mult ch locals (Bench.unopened regs)
    ((∀ line ∈ r.2.1, ¬ line.Red) ↔
      opens = false ∨ ((Whole copies 5 → d.keep 3 CSR_CHANNEL_ADDR ch = ch) ∧
        ∀ c ∈ checks, ¬ Whole copies (c.transfer + 2) → c.Passes mult ch (c.localVar locals))) ∧
    (∀ c ∈ checks, r.2.2.stack.file.regs c.addr =
      if opens = true ∧ Whole copies (c.transfer + 1) then
        d.keep c.transfer c.addr (c.word mult ch)
      else regs c.addr) ∧
    (∀ off, (∀ c ∈ checks, c.addr ≠ off) → r.2.2.stack.file.regs off = regs off) ∧
    r.2.2.stack.mode = .closed := by
  intro r
  cases opens with
  | false =>
      refine ⟨iff_of_true (fun line hline => absurd hline List.not_mem_nil) (Or.inl rfl),
        fun c _ => ?_, fun _ _ => rfl, rfl⟩
      rw [if_neg fun h => Bool.false_ne_true h.1]
      rfl
  | true =>
      obtain ⟨⟨verMaj, verMin, hlines⟩, hregs, hclosed⟩ :
          (∃ verMaj verMin, r.2.1 = .version verMaj verMin :: checks.flatMap fun c =>
            c.report mult ch (c.returned mult ch d copies locals)) ∧
          r.2.2.stack.file.regs = checks.foldl (Check.store mult ch d copies) regs ∧
          r.2.2.stack.mode = .closed :=
        testAxiMultiplier_opened d copies mult ch locals regs
      refine ⟨?_, fun c hc => ?_, fun off hoff => ?_, hclosed⟩
      · have hversion : ¬ (Line.version verMaj verMin).Red := id
        rw [hlines, List.forall_mem_cons, List.forall_mem_flatMap, and_iff_right hversion]
        simp only [Check.forall_report_iff, Bool.true_eq_false, false_or]
        constructor
        · intro hall
          have hpasses := fun c hc =>
            (Check.passes_returned mult ch d copies locals (onRegister_of_mem_checks hc)).mp
              (hall c hc)
          exact ⟨(hpasses .channel (List.mem_cons_of_mem _ List.mem_cons_self)).1 rfl,
            fun c hc => (hpasses c hc).2⟩
        · intro hall c hc
          exact (Check.passes_returned mult ch d copies locals (onRegister_of_mem_checks hc)).mpr
            ⟨fun _ => hall.1, hall.2 c hc⟩
      · rw [hregs, foldl_store_of_mem mult ch d copies regs pairwise_checks hc]
        exact if_congr (and_iff_right rfl).symm rfl rfl
      · rw [hregs, foldl_store_of_ne mult ch d copies regs hoff]

end RlsMini.Regs.AxiMultiplier
