import RlsMini.Regs.Driver

/-!
# The register access of the libraries

`axi_dsp.cpp` and `axi_multiplier.c` read and write a register in the same
way: seek to its offset, transfer one word, and on a failed transfer close the
descriptor and return an error.  The result of `lseek` is not looked at.

The system calls are a parameter: `Posix σ` gives their effect on a state `σ`
of whatever the descriptors lead to.
-/

namespace RlsMini.Regs

/-- `enum fd_err`. -/
inductive FdErr where
  | FD_ERR_NONE
  | FD_ERR_WRITE
  | FD_ERR_READ
  | FD_ERR_NO_DEVICE
  deriving DecidableEq, Repr

/-- The system calls that the libraries make. -/
structure Posix (σ : Type) where
  /-- `open` of the device, `O_RDONLY` or `O_RDWR`. -/
  openDevice : (readOnly : Bool) → σ → Int32 × σ
  lseek : (fd : Int32) → (off : Int64) → (whence : Int32) → σ → Int64 × σ
  /-- `read` of four bytes: the result and the word in the buffer. -/
  read : (fd : Int32) → σ → Int64 × UInt32 × σ
  /-- `write` of the four bytes of a word. -/
  write : (fd : Int32) → (val : UInt32) → σ → Int64 × σ
  close : (fd : Int32) → σ → σ

section Access

variable {σ : Type} (os : Posix σ) (fd : Int32)

/-- The write access of both libraries. -/
def regWrite (val regmapOffset : UInt32) (s : σ) : FdErr × σ :=
  let (_, s) := os.lseek fd (Int64.ofNat regmapOffset.toNat) SEEK_SET s
  let (n, s) := os.write fd val s
  if n ≠ 4 then (.FD_ERR_WRITE, os.close fd s)
  else (.FD_ERR_NONE, s)

/-- The read access of both libraries: the error, and `*val`, which keeps its
old value when there is one. -/
def regRead (val regmapOffset : UInt32) (s : σ) : FdErr × UInt32 × σ :=
  let (_, s) := os.lseek fd (Int64.ofNat regmapOffset.toNat) SEEK_SET s
  let (n, rd, s) := os.read fd s
  if n ≠ 4 then (.FD_ERR_READ, val, os.close fd s)
  else (.FD_ERR_NONE, rd, s)

variable {os fd} in
/-- The state after a write access: without the four bytes the descriptor is
closed. -/
theorem regWrite_snd (val off : UInt32) (s : σ) :
    (regWrite os fd val off s).2 =
      let t := os.write fd val (os.lseek fd (Int64.ofNat off.toNat) SEEK_SET s).2
      if t.1 = 4 then t.2 else os.close fd t.2 := by
  simp only [regWrite]
  split
  · rfl
  · rename_i hn
    rw [if_pos (not_not.mp hn)]

variable {os fd} in
/-- The state after a read access. -/
theorem regRead_snd (val off : UInt32) (s : σ) :
    (regRead os fd val off s).2.2 =
      let t := os.read fd (os.lseek fd (Int64.ofNat off.toNat) SEEK_SET s).2
      if t.1 = 4 then t.2.2 else os.close fd t.2.2 := by
  simp only [regRead]
  split
  · rfl
  · rename_i hn
    rw [if_pos (not_not.mp hn)]

/-- `axi_write` of `axi_dsp.cpp`. -/
def axiWrite (val regmapOffset : UInt32) (s : σ) : FdErr × σ :=
  regWrite os fd val regmapOffset s

/-- `axi_read` of `axi_dsp.cpp`. -/
def axiRead (val regmapOffset : UInt32) (s : σ) : FdErr × UInt32 × σ :=
  regRead os fd val regmapOffset s

/-- `axi_multiplier_write`. -/
def axiMultiplierWrite (val regmapOffset : UInt32) (s : σ) : FdErr × σ :=
  regWrite os fd val regmapOffset s

/-- `axi_multiplier_read`. -/
def axiMultiplierRead (val regmapOffset : UInt32) (s : σ) : FdErr × UInt32 × σ :=
  regRead os fd val regmapOffset s

end Access

end RlsMini.Regs
