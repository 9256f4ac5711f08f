import Mathlib.Data.BitVec

/-!
# Stream ciphers

A generator goes through its states whatever the text is and yields a mask for every
character. The text is masked by exclusive or, so that what masks it also unmasks it.
-/
namespace Defib.StreamCiphers

variable {S : Type*} {n : ℕ} (next : S → BitVec n × S)

def crypt : S → List (BitVec n) → List (BitVec n)
  | _,[] => []
  | s,x::xs => (x ^^^ (next s).1) :: crypt (next s).2 xs

@[simp] lemma crypt_length (s : S) (xs : List (BitVec n)) :
    (crypt next s xs).length = xs.length := by
  induction xs generalizing s with
  | nil => rfl
  | cons x xs ih => rw [crypt,List.length_cons,ih,List.length_cons]

lemma crypt_crypt (s : S) (xs : List (BitVec n)) : crypt next s (crypt next s xs) = xs := by
  induction xs generalizing s with
  | nil => rfl
  | cons x xs ih => rw [crypt,crypt,ih,BitVec.xor_assoc,BitVec.xor_self,BitVec.xor_zero]

end Defib.StreamCiphers
