import Defib.AgentTransfers

/-!
# The trampoline of a self-update

`handle_selfupdate` puts a few instructions at `RAM_BASE + 0x200` and calls them with the
destination, the staged image and its size. They are given as the words of the source, and
`exec` is what an ARM core in ARM state does with words of these kinds. The program counter counts
words from the start of the trampoline, and the flags are kept as the operands last compared.
-/
namespace Defib.Trampoline
open Words BlockMemory Crc32 Boards AgentMachine AgentTransfers

/-- What other parts of the core see. -/
inductive Effect where
  | clean (a : ℕ)
  | invalidate (a : ℕ)
  | barrier
  deriving DecidableEq, Repr

structure Cpu where
  mem : ℕ → Byte
  reg : ℕ → ℕ
  compared : ℕ × ℕ
  pc : ℕ
  effects : List Effect
  jumped : Option ℕ

def sub32 (x y : ℕ) : ℕ := if y ≤ x then x-y else x+4294967296-y

def signed (x : ℕ) : ℤ := if x < 2147483648 then x else x-4294967296

namespace Cpu

@[simp] def set (c : Cpu) (d v : ℕ) : Cpu := {c with reg := Function.update c.reg d v}

@[simp] def branch (c : Cpu) (w : ℕ) (taken : Bool) : Cpu :=
  {c with pc := if taken then (c.pc+2+w%16777216)%16777216 else c.pc+1}

/-- The instruction `w`, by its condition and operation code. A `bx` to an odd address would
enter Thumb state, and one to an address between words is unpredictable. -/
@[simp] def exec (c : Cpu) (w : ℕ) : Option Cpu :=
  let n := w/65536%16
  let d := w/4096%16
  let m := w%16
  let next := {c with pc := c.pc+1}
  match w/1048576 with
  -- add, bx, cmp, mov
  | 0xe08 => some (next.set d (u32 (c.reg n+c.reg m)))
  | 0xe12 => if c.reg m%4 = 0 then some {c with jumped := some (c.reg m)} else none
  | 0xe15 => some {next with compared := (c.reg n,c.reg m)}
  | 0xe1a => some (next.set d (c.reg m))
  -- subs, add, cmp, bic with an immediate operand
  | 0xe25 => some {next.set d (sub32 (c.reg n) (w%256)) with compared := (c.reg n,w%256)}
  | 0xe28 => some (next.set d (u32 (c.reg n+w%256)))
  | 0xe35 => some {next with compared := (c.reg n,w%256)}
  | 0xe3c => some (next.set d (c.reg n-(c.reg n &&& w%256)))
  -- strb, ldrb with the address register moved on
  | 0xe4c => some {next.set n (u32 (c.reg n+w%4096)) with
      mem := storeBytes c.mem (c.reg n) [BitVec.ofNat 8 (c.reg d)]}
  | 0xe4d => some ((next.set d (c.mem (u32 (c.reg n))).toNat).set n (u32 (c.reg n+w%4096)))
  -- mcr: DCCMVAU or ICIMVAU; dsb, isb
  | 0xee0 => some {next with effects := c.effects++
      [if w%256 = 0x3b then .clean (c.reg d) else .invalidate (c.reg d)]}
  | 0xf57 => some {next with effects := c.effects++[.barrier]}
  | _ => match w/16777216 with
      -- beq, bne, blt
      | 0x0a => some (c.branch w (c.compared.1 = c.compared.2))
      | 0x1a => some (c.branch w (c.compared.1 ≠ c.compared.2))
      | 0xba => some (c.branch w (signed c.compared.1 < signed c.compared.2))
      | _ => none

end Cpu

/-- The first `k` instructions of the code. -/
def runs (code : List ℕ) : ℕ → Cpu → Option Cpu
  | 0,c => some c
  | k+1,c => (code[c.pc]?.bind c.exec).bind (runs code k)

lemma runs_add {code : List ℕ} {j k : ℕ} {c c' : Cpu} (h : runs code j c = some c') :
    runs code (j+k) c = runs code k c' := by
  induction j generalizing c with
  | zero =>
    cases h
    rw [Nat.zero_add]
  | succ j ih =>
    obtain ⟨d,hd,hrest⟩ := Option.bind_eq_some_iff.mp h
    rw [Nat.add_right_comm,runs,hd]
    exact ih hrest

/-- `trampoline_arm` of the ARM926 target. -/
def trampolineV5 : List ℕ :=
  [0xe1a03000,0xe3520000,0x0a000003,0xe4d14001,0xe4c04001,0xe2522001,0x1afffffb,0xe12fff13]

/-- `trampoline_arm` of all other targets. -/
def trampolineV7 : List ℕ :=
  [0xe1a03000,0xe1a05002,0xe3520000,0x0a000003,0xe4d14001,0xe4c04001,0xe2522001,0x1afffffb,
   0xe1a00003,0xe0836005,0xe3c0001f,0xee070f3b,0xee070f35,0xe2800020,0xe1500006,0xbafffffa,
   0xf57ff04f,0xf57ff06f,0xe12fff13]

def trampolineArm (soc : Soc) : List ℕ := if soc = .hi3516cv300 then trampolineV5 else trampolineV7

/-! ### The copy loop -/

/-- The four words of the loop, from word `i` on. -/
def HasLoop (code : List ℕ) (i : ℕ) : Prop :=
  code[i]? = some 0xe4d14001 ∧ code[i+1]? = some 0xe4c04001 ∧ code[i+1+1]? = some 0xe2522001 ∧
    code[i+1+1+1]? = some 0x1afffffb

section
variable {code : List ℕ} {c : Cpu} {i n a p : ℕ}

lemma copy_pass (hloop : HasLoop code i) (hi : i < 1000) (hpc : c.pc = i) (h0 : c.reg 0 = a)
    (h1 : c.reg 1 = p) (h2 : c.reg 2 = n+1) (ha : a < p) (hp : p+n < 4294967295) :
    ∃ c',runs code 4 c = some c' ∧ c'.pc = (if n = 0 then i+4 else i) ∧
      c'.mem = storeBytes c.mem a [c.mem (u32 p)] ∧ c'.effects = c.effects ∧ c'.reg 0 = a+1 ∧
      c'.reg 1 = p+1 ∧ c'.reg 2 = n ∧ c'.reg 3 = c.reg 3 ∧ c'.reg 5 = c.reg 5 := by
  obtain ⟨hw0,hw1,hw2,hw3⟩ := hloop
  have hnext : u32 (a+1) = a+1 ∧ u32 (p+1) = p+1 := ⟨u32_of_lt (by omega),u32_of_lt (by omega)⟩
  have hback : (i+1+1+1+2+16777211)%16777216 = i := by omega
  simp [runs,hpc,hw0,hw1,hw2,hw3,h0,h1,h2,sub32,hnext,hback]

lemma copies (hloop : HasLoop code i) (hi : i < 1000) (hpc : c.pc = i) (h0 : c.reg 0 = a)
    (h1 : c.reg 1 = p) (h2 : c.reg 2 = n+1) (ha : a+(n+1) ≤ p) (hp : p+(n+1) < 4294967296) :
    ∃ k c',runs code k c = some c' ∧ c'.pc = i+4 ∧
      c'.mem = storeBytes c.mem a (loadBytes c.mem p (n+1)) ∧ c'.effects = c.effects ∧
      c'.reg 3 = c.reg 3 ∧ c'.reg 5 = c.reg 5 := by
  induction n generalizing c a p with
  | zero =>
    obtain ⟨d,hrun,hpc',hmem,heff,-,-,-,h3,h5⟩ := copy_pass hloop hi hpc h0 h1 h2 (by omega)
      (by omega)
    exact ⟨4,d,hrun,hpc',hmem,heff,h3,h5⟩
  | succ n ih =>
    obtain ⟨d,hrun,hpc',hmem,heff,h0',h1',h2',h3,h5⟩ := copy_pass hloop hi hpc h0 h1 h2
      (by omega) (by omega)
    obtain ⟨k,d',hrun',hpc'',hmem',heff',h3',h5'⟩ := ih hpc' h0' h1' h2' (by omega) (by omega)
    refine ⟨4+k,d',(runs_add hrun).trans hrun',hpc'',?_,heff'.trans heff,h3'.trans h3,h5'.trans h5⟩
    have hload : loadBytes c.mem p (n+1+1) = c.mem (u32 p)::loadBytes c.mem (p+1) (n+1) :=
      slice_succ _ p (n+1)
    rw [hmem',hmem,loadBytes_store_apart _ (by simp; omega) (by omega) (.inr (by simp; omega)),
      hload]
    generalize loadBytes c.mem (p+1) (n+1) = xs
    rfl

end

/-! ### Cache lines -/

/-- `n` lines from `l` on, each written back and dropped from the instruction cache. -/
def maintained (l : ℕ) : ℕ → List Effect
  | 0 => []
  | n+1 => .clean l::.invalidate l::maintained (l+32) n

lemma signed_lt {x y : ℕ} (hx : x < 4294967296) (hy : y < 4294967296)
    (h : x < 2147483648 ↔ y < 2147483648) : signed x < signed y ↔ x < y := by
  unfold signed
  split_ifs <;> omega

section
variable {c : Cpu} {n l e : ℕ}

lemma maintain_pass (hpc : c.pc = 11) (h0 : c.reg 0 = l) (h6 : c.reg 6 = e) (hlow : l < e)
    (he : e+32 ≤ 2147483648 ∨ 2147483648 ≤ l ∧ e+32 < 4294967296) :
    ∃ c',runs trampolineV7 5 c = some c' ∧ c'.pc = (if l+32 < e then 11 else 16) ∧
      c'.mem = c.mem ∧ c'.effects = c.effects++[.clean l,.invalidate l] ∧ c'.reg 0 = l+32 ∧
      c'.reg 3 = c.reg 3 ∧ c'.reg 6 = e := by
  have hnext : u32 (l+32) = l+32 := u32_of_lt (by omega)
  have hless := signed_lt (x := l+32) (y := e) (by omega) (by omega) (by omega)
  simp [runs,trampolineV7,hpc,h0,h6,hnext,hless]

lemma maintains (hpc : c.pc = 11) (h0 : c.reg 0 = l) (h6 : c.reg 6 = e) (hlow : l+32*n < e)
    (hhigh : e ≤ l+32*(n+1)) (he : e+32 ≤ 2147483648 ∨ 2147483648 ≤ l ∧ e+32 < 4294967296) :
    ∃ k c',runs trampolineV7 k c = some c' ∧ c'.pc = 16 ∧ c'.mem = c.mem ∧ c'.reg 3 = c.reg 3 ∧
      c'.effects = c.effects++maintained l (n+1) := by
  induction n generalizing c l with
  | zero =>
    obtain ⟨d,hrun,hpc',hmem,heff,-,h3,-⟩ := maintain_pass hpc h0 h6 (by omega) he
    exact ⟨5,d,hrun,by rw [hpc',if_neg (by omega)],hmem,h3,heff⟩
  | succ n ih =>
    obtain ⟨d,hrun,hpc',hmem,heff,h0',h3,h6'⟩ := maintain_pass hpc h0 h6 (by omega) he
    rw [if_pos (by omega)] at hpc'
    obtain ⟨k,d',hrun',hpc'',hmem',h3',heff'⟩ := ih hpc' h0' h6' (by omega) (by omega) (by omega)
    refine ⟨5+k,d',(runs_add hrun).trans hrun',hpc'',hmem'.trans hmem,h3'.trans h3,?_⟩
    rw [heff',heff,List.append_assoc]
    rfl

end

/-! ### Whole trampolines -/

/-- Cache maintenance for `n` bytes at `a`. -/
def flushed (soc : Soc) (a n : ℕ) : List Effect :=
  if soc = .hi3516cv300 then [] else maintained (a-a%32) ((a%32+n+31)/32)++[.barrier,.barrier]

section
variable {n a p : ℕ} {c : Cpu} (hpc : c.pc = 0) (h0 : c.reg 0 = a) (h1 : c.reg 1 = p)
  (h2 : c.reg 2 = n+1) (ha : a+(n+1) ≤ p) (hp : p+(n+1) < 4294967296) (hword : a%4 = 0)
include hpc h0 h1 h2 ha hp hword

lemma trampolineV5_runs : ∃ k c',runs trampolineV5 k c = some c' ∧ c'.jumped = some a ∧
    c'.mem = storeBytes c.mem a (loadBytes c.mem p (n+1)) ∧ c'.effects = c.effects := by
  obtain ⟨d,hrun,hpc',hmem,heff,h0',h1',h2',h3⟩ : ∃ d,runs trampolineV5 3 c = some d ∧ d.pc = 3 ∧
      d.mem = c.mem ∧ d.effects = c.effects ∧ d.reg 0 = a ∧ d.reg 1 = p ∧ d.reg 2 = n+1 ∧
      d.reg 3 = a := by
    simp [runs,trampolineV5,hpc,h0,h1,h2]
  obtain ⟨k,e,hcopy,hpc'',hmem',heff',h3',-⟩ := copies (i := 3)
    (show HasLoop trampolineV5 3 from ⟨rfl,rfl,rfl,rfl⟩) (by omega) hpc' h0' h1' h2' ha hp
  obtain ⟨f,hlast,hjump,hmem'',heff''⟩ : ∃ f,runs trampolineV5 1 e = some f ∧
      f.jumped = some (e.reg 3) ∧ f.mem = e.mem ∧ f.effects = e.effects := by
    simp [runs,trampolineV5,hpc'',h3',h3,hword]
  refine ⟨3+(k+1),f,(runs_add hrun).trans ((runs_add hcopy).trans hlast),?_,?_,?_⟩
  · rw [hjump,h3',h3]
  · rw [hmem'',hmem',hmem]
  · rw [heff'',heff',heff]

lemma trampolineV7_runs (hside : a+n+33 ≤ 2147483648 ∨ 2147483648 ≤ a ∧ a+n+33 < 4294967296) :
    ∃ k c',runs trampolineV7 k c = some c' ∧ c'.jumped = some a ∧
      c'.mem = storeBytes c.mem a (loadBytes c.mem p (n+1)) ∧
      c'.effects = c.effects++(maintained (a-a%32) ((a%32+n+32)/32)++[.barrier,.barrier]) := by
  obtain ⟨d,hrun,hpc',hmem,heff,h0',h1',h2',h3,h5⟩ : ∃ d,runs trampolineV7 4 c = some d ∧
      d.pc = 4 ∧ d.mem = c.mem ∧ d.effects = c.effects ∧ d.reg 0 = a ∧ d.reg 1 = p ∧
      d.reg 2 = n+1 ∧ d.reg 3 = a ∧ d.reg 5 = n+1 := by
    simp [runs,trampolineV7,hpc,h0,h1,h2]
  obtain ⟨k,e,hcopy,hpc'',hmem',heff',h3',h5'⟩ := copies (i := 4)
    (show HasLoop trampolineV7 4 from ⟨rfl,rfl,rfl,rfl⟩) (by omega) hpc' h0' h1' h2' ha hp
  have hand : a &&& 31 = a%32 := Nat.and_two_pow_sub_one_eq_mod a 5
  have hend : u32 (a+(n+1)) = a+(n+1) := u32_of_lt (by omega)
  obtain ⟨f,hback,hpcf,hmemf,hefff,h0f,h6f,h3f⟩ : ∃ f,runs trampolineV7 3 e = some f ∧ f.pc = 11 ∧
      f.mem = e.mem ∧ f.effects = e.effects ∧ f.reg 0 = a-a%32 ∧ f.reg 6 = a+(n+1) ∧
      f.reg 3 = a := by
    simp [runs,trampolineV7,hpc'',h3',h3,h5',h5,hand,hend]
  obtain ⟨j,g,hlines,hpcg,hmemg,h3g,heffg⟩ := maintains (n := (a%32+n)/32) hpcf h0f h6f (by omega)
    (by omega) (by omega)
  obtain ⟨x,hlast,hjump,hmemx,heffx⟩ : ∃ x,runs trampolineV7 3 g = some x ∧
      x.jumped = some (g.reg 3) ∧ x.mem = g.mem ∧ x.effects = g.effects++[.barrier,.barrier] := by
    simp [runs,trampolineV7,hpcg,h3g,h3f,hword]
  refine ⟨4+(k+(3+(j+3))),x,(runs_add hrun).trans ((runs_add hcopy).trans ((runs_add hback).trans
    ((runs_add hlines).trans hlast))),?_,?_,?_⟩
  · rw [hjump,h3g,h3f]
  · rw [hmemx,hmemg,hmemf,hmem',hmem]
  · rw [heffx,heffg,hefff,heff',heff,show (a%32+n+32)/32 = (a%32+n)/32+1 by omega,
      List.append_assoc]

end

/-- The core when `handle_selfupdate` calls the copied trampoline. -/
def called {b : Board} (s : Machine b) (t : Transfer) (addr : ℕ) (reg : ℕ → ℕ)
    (compared : ℕ × ℕ) : Cpu where
  mem := storeBytes s.mem (b.config.ramBase+0x200) ((trampolineArm b.soc).flatMap writeLe32)
  reg x := if x = 0 then addr else if x = 1 then t.dest else if x = 2 then t.size else reg x
  compared := compared
  pc := 0
  effects := []
  jumped := none

lemma ramBase_side (soc : Soc) : soc.config.ramBase+0x8100000 ≤ 2147483648 ∨
    2147483648 ≤ soc.config.ramBase ∧ soc.config.ramBase+0x8200000 ≤ 4294967296 := by
  cases soc <;> decide

lemma trampolineArm_runs {soc : Soc} {n a p : ℕ} {c : Cpu} (hpc : c.pc = 0) (h0 : c.reg 0 = a)
    (h1 : c.reg 1 = p) (h2 : c.reg 2 = n+1) (ha : a+(n+1) ≤ p) (hp : p+(n+1) < 4294967296)
    (hword : a%4 = 0)
    (hside : a+n+33 ≤ 2147483648 ∨ 2147483648 ≤ a ∧ a+n+33 < 4294967296)
    (heff : c.effects = []) :
    ∃ k c',runs (trampolineArm soc) k c = some c' ∧ c'.jumped = some a ∧
      c'.mem = storeBytes c.mem a (loadBytes c.mem p (n+1)) ∧ c'.effects = flushed soc a (n+1) := by
  by_cases hsoc : soc = .hi3516cv300
  · rw [trampolineArm,flushed,if_pos hsoc,if_pos hsoc,← heff]
    exact trampolineV5_runs hpc h0 h1 h2 ha hp hword
  · obtain ⟨k,c',hrun,hjump,hmem,heff'⟩ := trampolineV7_runs hpc h0 h1 h2 ha hp hword hside
    rw [trampolineArm,flushed,if_neg hsoc,if_neg hsoc]
    exact ⟨k,c',hrun,hjump,hmem,by rw [heff',heff]; rfl⟩

lemma store_store_outside (mem : ℕ → Byte) {a d x : ℕ} {xs ys : List Byte}
    (ha : a+xs.length ≤ 4294967296) (hd : d+ys.length ≤ 4294967296)
    (hx : x < a ∨ a+xs.length ≤ x) :
    storeBytes (storeBytes mem a xs) d ys x = storeBytes mem d ys x := by
  rw [storeBytes_eq_patch _ _ _ hd,storeBytes_eq_patch _ _ _ hd,storeBytes_eq_patch _ _ _ ha]
  by_cases hin : d ≤ x ∧ x < d+ys.length
  · obtain ⟨i,rfl⟩ := Nat.exists_eq_add_of_le hin.1
    rw [patch_inside _ _ _ (by omega),patch_inside _ _ _ (by omega)]
  · rw [patch_outside _ _ _ (by omega),patch_outside _ _ _ (by omega),
      patch_outside _ _ _ (by omega)]

lemma loadBytes_store_self (mem : ℕ → Byte) {a n : ℕ} {xs : List Byte} (hn : xs.length = n)
    (h : a+n ≤ 4294967296) : loadBytes (storeBytes mem a xs) a n = xs := by
  subst hn
  rw [loadBytes_eq_slice _ _ _ h,storeBytes_eq_patch _ _ _ h,slice_patch_self]

/-- A verified self-update of a word-aligned load address above the trampoline ends with a
jump to the new agent: memory is what the transfer leaves, apart from the trampoline, which
has not overwritten itself, and the cache lines of the image are written back. -/
theorem selfupdate_runs_image {b : Board} (s : Machine b) {t : Transfer} {addr : ℕ}
    (hjob : t.job = .update addr) (hdest : t.dest = updateStaging addr)
    (hacc : updateAccepted b addr t.size = true)
    (hcrc : (crc32 0 (loadBytes s.mem t.dest t.size)).toNat = t.expectedCrc)
    (hword : addr%4 = 0) (hlow : b.config.ramBase+0x200+4*(trampolineArm b.soc).length ≤ addr)
    (hhigh : addr+t.size ≤ b.config.ramBase+0x8000000) (reg : ℕ → ℕ) (compared : ℕ × ℕ) :
    ∃ k c',runs (trampolineArm b.soc) k (called s t addr reg compared) = some c' ∧
      c'.jumped = some addr ∧ (crc32 0 (loadBytes c'.mem addr t.size)).toNat = t.expectedCrc ∧
      (∀ x,x < b.config.ramBase+0x200 ∨
        b.config.ramBase+0x200+4*(trampolineArm b.soc).length ≤ x →
          c'.mem x = (finishTransfer s t).2.1.mem x) ∧
      loadBytes c'.mem (b.config.ramBase+0x200) (4*(trampolineArm b.soc).length) =
        (trampolineArm b.soc).flatMap writeLe32 ∧
      c'.effects = flushed b.soc addr t.size := by
  have hside := ramBase_side b.soc
  have hbase : b.config.ramBase = b.soc.config.ramBase := rfl
  simp only [updateAccepted,Bool.and_eq_true,decide_eq_true_eq] at hacc
  have hmax : t.size ≤ 262144 := hacc.1.1.2
  rw [updateStaging,u32_of_lt (by omega)] at hdest
  obtain ⟨n,hn⟩ : ∃ n,t.size = n+1 := ⟨t.size-1,by omega⟩
  have hcode : ((trampolineArm b.soc).flatMap writeLe32).length =
      4*(trampolineArm b.soc).length := by
    simp [List.length_flatMap,Nat.mul_comm]
  have hbytes : loadBytes (called s t addr reg compared).mem t.dest t.size =
      loadBytes s.mem t.dest t.size :=
    loadBytes_store_apart _ (by omega) (by omega) (.inr (by omega))
  obtain ⟨k,c',hrun,hjump,hmem,heff⟩ := trampolineArm_runs (a := addr) (p := t.dest)
    (c := called s t addr reg compared) rfl rfl rfl hn (by omega) (by omega) hword
    (by omega) rfl
  rw [← hn,hbytes] at hmem
  have himage : (loadBytes s.mem t.dest t.size).length = t.size := loadBytes_length _ _ _
  refine ⟨k,c',hrun,hjump,?_,?_,?_,by rw [heff,hn]⟩
  · rw [hmem,loadBytes_store_self _ himage (by omega),hcrc]
  · intro x hx
    have hend : (finishTransfer s t).2.1.mem =
      storeBytes s.mem addr (loadBytes s.mem t.dest t.size) := by
      simp only [finishTransfer,hjob,hcrc,ne_eq,not_true_eq_false,if_false]
      rfl
    rw [hmem,hend]
    exact store_store_outside _ (by omega) (by omega) (by omega)
  · rw [hmem,loadBytes_store_apart _ (by omega) (by omega) (.inl (by omega))]
    exact loadBytes_store_self _ hcode (by omega)

def blankRam : Machine (.withNor .hi3516ev300 0x17) :=
  .idle _ (fun _ => 0) (fun _ => 0) (fun _ => 0xFF) 0

def oneByte : Transfer := ⟨.update 0x41000000,0x41100000,1,0xd202ef8d,1⟩

theorem oneByte_jumps : ∃ k c',
    runs trampolineV7 k (called blankRam oneByte 0x41000000 (fun _ => 0) (0,0)) = some c' ∧
      c'.jumped = some 0x41000000 ∧
      c'.effects = [.clean 0x41000000,.invalidate 0x41000000,.barrier,.barrier] := by
  obtain ⟨k,c',hrun,hjump,-,-,-,heff⟩ := selfupdate_runs_image blankRam (t := oneByte) rfl
    (by decide) (by decide) (by decide +kernel) (by decide) (by decide) (by decide) (fun _ => 0)
    (0,0)
  exact ⟨k,c',hrun,hjump,heff⟩

end Defib.Trampoline
