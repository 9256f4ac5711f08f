import Mathlib.Logic.Equiv.Basic
import Mathlib.Logic.Function.Iterate
import Defib.BootFrames
import Defib.StreamCiphers

/-!
# Checksum and cipher of the boot ROM upload

The CRC-16 of the boot ROM shares its table with the frames of the other protocol but
starts at 0xFFFF and takes the data without zeros behind it. RC4 is the plain one, with
the key the boot ROM has.
-/
namespace Defib.RockusbCodec
open Words BootFrames StreamCiphers

def crc16Init : ℕ := 0xFFFF

def rkCrcStep (crc : ℕ) (byte : Byte) : ℕ :=
  ((crc <<< 8) &&& 0xFFFF) ^^^ crcTable.getD (((crc >>> 8) ^^^ byte.toNat) &&& 0xFF) 0

def rkCrc16 (data : List Byte) (crc : ℕ) : ℕ := data.foldl rkCrcStep crc &&& 0xFFFF

lemma rkCrc16_lt (data : List Byte) (crc : ℕ) : rkCrc16 data crc < 65536 :=
  Nat.lt_succ_of_le Nat.and_le_right

def rkRc4Key : List Byte := [124,78,3,4,85,5,9,7,45,44,123,56,23,13,23,17]

/-- The permutation and the two indices; an index is masked by 0xFF whenever it moves. -/
structure Rc4 where
  s : Byte → Byte
  i : Byte
  j : Byte

/-- `s[i], s[j] = s[j], s[i]`. -/
def swap (s : Byte → Byte) (i j : Byte) : Byte → Byte :=
  Function.update (Function.update s i (s j)) j (s i)

/-- One round of the key schedule; the key is not empty. -/
def schedule (key : List Byte) (st : (Byte → Byte) × Byte) (n : ℕ) : (Byte → Byte) × Byte :=
  let i := BitVec.ofNat 8 n
  let j := st.2+st.1 i+key.getD (n%key.length) 0
  (swap st.1 i j,j)

def rc4Init (key : List Byte) : Rc4 :=
  ⟨((List.range 256).foldl (schedule key) (id,0)).1,0,0⟩

def rc4Next (st : Rc4) : Byte × Rc4 :=
  let i := st.i+1
  let j := st.j+st.s i
  let s := swap st.s i j
  (s (s i+s j),⟨s,i,j⟩)

lemma swap_bijective {s : Byte → Byte} (h : Function.Bijective s) (i j : Byte) :
    Function.Bijective (swap s i j) := by
  have heq : swap s i j = s ∘ Equiv.swap i j := by
    funext x
    simp only [swap,Function.update_apply,Function.comp_apply,Equiv.swap_apply_def]
    split_ifs with hj hi <;> simp_all
  rw [heq]
  exact h.comp (Equiv.bijective _)

/-- The state is a permutation from the key schedule on. -/
theorem rc4_bijective (key : List Byte) (n : ℕ) :
    Function.Bijective ((fun st => (rc4Next st).2)^[n] (rc4Init key)).s := by
  induction n with
  | zero =>
    refine List.foldlRecOn (motive := fun st : (Byte → Byte) × Byte => Function.Bijective st.1) _ _
      Function.bijective_id ?_
    exact fun st h m _ => swap_bijective h _ _
  | succ n ih =>
    rw [Function.iterate_succ_apply']
    exact swap_bijective ih _ _

def rc4 (data key : List Byte) : List Byte := crypt rc4Next (rc4Init key) data

@[simp] lemma rc4_length (data key : List Byte) : (rc4 data key).length = data.length :=
  crypt_length _ _ _

lemma rc4_rc4 (data key : List Byte) : rc4 (rc4 data key) key = data := crypt_crypt _ _ _

example : rc4 [0x50,0x6c,0x61,0x69,0x6e,0x74,0x65,0x78,0x74] [0x4b,0x65,0x79] =
    [0xbb,0xf3,0x16,0xe8,0xd9,0x40,0xaf,0x0a,0xd3] := by
  decide +kernel

end Defib.RockusbCodec
