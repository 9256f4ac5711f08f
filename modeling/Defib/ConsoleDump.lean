import Defib.MdDisplay
import Defib.DumpFlash

/-!
# Dumping over a perfect console

The console loses and corrupts nothing: every command is echoed, answered and followed by
the prompt. `sendCommand` collects the answer in reads that end anywhere and stops at the
first of them after which the last 64 characters hold the mark of the prompt; what it
leaves unread meets the next command, which discards as much of it as has arrived by then.
Characters are decoded bytes; deadlines are taken to be long enough.
-/
namespace Defib.ConsoleDump
open Words BlockMemory PyText MdOutput MdDisplay Dialogue Dialogue.Program DumpFlash
open List hiding contains

/-- What `send_command` waits for. -/
def waitFor : List Char := ['#',' ']

def promptSeen (buf : List Char) : Bool := contains waitFor (buf.drop (buf.length-64))

/-- How much the `k`-th read of a command returns if so much has arrived. -/
def readSize (cut : ℕ → ℕ) (k : ℕ) : ℕ := min (cut k+1) 4096

/-- The reads of one command: what it returns and what it leaves. -/
def receive (cut : ℕ → ℕ) : ℕ → ℕ → List Char → List Char → List Char × List Char
  | 0,_,buf,pending => (buf,pending)
  | fuel+1,k,buf,pending =>
    if pending = [] then (buf,[])
    else
      let buf' := buf++pending.take (readSize cut k)
      let rest := pending.drop (readSize cut k)
      if promptSeen buf' then (buf',rest) else receive cut fuel (k+1) buf' rest

/-- For every command, how much of a leftover is discarded and how its answer is cut. -/
structure Splits where
  clear : ℕ → ℕ
  cut : ℕ → ℕ → ℕ

/-- The commands so far and the characters not read yet. -/
structure Line where
  count : ℕ
  pending : List Char

/-- Between two commands, with nothing left to read. -/
def Line.idle (count : ℕ) : Line := ⟨count,[]⟩

/-- A console without `crc32`, and the memory it displays. -/
structure Uboot where
  eol : List Char
  prompt : List Char
  mem : ℕ → Byte
  isEol : IsEol eol
  prompt_ends : ∃ name,prompt = name++waitFor

def hexText (n : ℕ) : List Char := Nat.toDigits 16 n

def mdWord : List Char := ['m','d','.','b',' ']
def crcWord : List Char := ['c','r','c','3','2',' ']
def hexWord (n : ℕ) : List Char := '0' :: 'x' :: hexText n

def commandText : Query → List Char
  | .md .check addr _ => mdWord++(hexWord addr++[' ','1','0'])
  | .md _ addr n => mdWord++(hexWord addr++ ' ' :: hexWord n)
  | .crcProbe => crcWord++['0',' ','0']
  | .crc addr n => crcWord++(hexWord addr++ ' ' :: hexWord n)
  | .blank => []

namespace Uboot
variable (d : Uboot)

def body : Query → List (List Char)
  | .md _ addr n => mdLines d.mem addr n
  | .crcProbe => ["Unknown command 'crc32' - try 'help'".toList]
  | .crc _ _ => ["Unknown command 'crc32' - try 'help'".toList]
  | .blank => []

/-- Everything that is printed after a command has been sent. -/
def answer (q : Query) : List Char :=
  commandText q++(d.eol++(withEol d.eol (d.body q)++d.prompt))

end Uboot

def sendCommand {D : Type} (d : Uboot) (w : Splits) (s : Line) (q : Query) : Reply D × Line :=
  let stream := s.pending.drop (w.clear s.count)++d.answer q
  let r := receive (w.cut s.count) stream.length 0 [] stream
  (.text r.1,⟨s.count+1,r.2⟩)

/-! ### Reading a whole answer -/

lemma hexText_mem {n : ℕ} {c : Char} (h : c ∈ hexText n) : ∃ v < 16,c = Nat.digitChar v := by
  have hcore (fuel m : ℕ) (ds : List Char) (hds : ∀ c ∈ ds,∃ v < 16,c = Nat.digitChar v) :
      ∀ c ∈ Nat.toDigitsCore 16 fuel m ds,∃ v < 16,c = Nat.digitChar v := by
    induction fuel generalizing m ds with
    | zero => exact hds
    | succ fuel ih =>
      have hmore : ∀ c ∈ Nat.digitChar (m%16)::ds,∃ v < 16,c = Nat.digitChar v :=
        forall_mem_cons.mpr ⟨⟨_,Nat.mod_lt _ (by decide),rfl⟩,hds⟩
      rw [Nat.toDigitsCore]
      split_ifs
      · exact hmore
      · exact ih _ _ hmore
  exact hcore _ _ [] nofun c h

/-- Graphic characters other than the mark, and blanks. -/
def Quiet (c : Char) : Prop := 32 ≤ c.toNat ∧ c.toNat < 127 ∧ c ≠ '#'

instance : DecidablePred Quiet := fun _ => inferInstanceAs (Decidable (_ ∧ _ ∧ _))

lemma hexText_quiet (n : ℕ) : ∀ c ∈ hexText n,Quiet c := by
  intro c hc
  obtain ⟨v,hv,rfl⟩ := hexText_mem hc
  obtain ⟨-,-,hlt,hle,hne⟩ := digitChar_spec v hv
  exact ⟨by omega,hlt,hne⟩

lemma hexWord_quiet (n : ℕ) : ∀ c ∈ hexWord n,Quiet c :=
  forall_mem_cons.mpr ⟨by decide,forall_mem_cons.mpr ⟨by decide,hexText_quiet n⟩⟩

lemma words_quiet {w : List Char} (hw : ∀ c ∈ w,Quiet c) (addr n : ℕ) :
    ∀ c ∈ w++(hexWord addr++ ' ' :: hexWord n),Quiet c := by
  simp only [forall_mem_append,forall_mem_cons]
  exact ⟨hw,hexWord_quiet addr,by decide,hexWord_quiet n⟩

section
variable {T : CharTable}

end

/-! ### The undisturbed dialogue -/

section
variable {T : CharTable} {D : Type} [DecidableEq D] {crc : List Byte → D} {d : Uboot}

def Uboot.reply (d : Uboot) (q : Query) : Reply D := .text (d.answer q)

variable (T crc d)

end

/-! ### A row that shows the prompt -/

end Defib.ConsoleDump
