import Defib.FlashDevice
import Defib.Install
import Defib.ScanFlash
import Defib.ShiftRegisters

/-!
# The agent's CRC-32 is zlib's

The table of the agent holds eight divisions of every byte by the reflected polynomial, so
that one round of its loop is eight rounds of the bitwise checksum. Both may be
interrupted and taken up again anywhere; the loops over pages, pieces and chunks therefore
all return the checksum of the bytes they go through.
-/
namespace Defib.Crc32Agreement
open Words BlockMemory Spans Crc32 FlashDevice ScanFlash ShiftRegisters

def crcBit (c : BitVec 32) : BitVec 32 :=
  if c.getLsbD 0 then (c >>> 1) ^^^ 0xEDB88320#32 else c >>> 1

/-- `zlib.crc32(data, value)`, bit by bit. -/
def zlibCrc32 (data : List Byte) (value : BitVec 32) : BitVec 32 :=
  data.foldl (fun c b => crcBit^[8] (c ^^^ b.setWidth 32)) (value ^^^ 0xFFFFFFFF#32) ^^^
    0xFFFFFFFF#32

example : zlibCrc32 [0x31,0x32,0x33,0x34,0x35,0x36,0x37,0x38,0x39] 0 = 0xCBF43926#32 := by
  decide +kernel

/-- `erased_region_crc`; `none` is the `ValueError`. The loop takes a whole chunk as long as
so much remains. -/
def erasedRegionCrc (size : ℤ) : Option ℕ :=
  if size < 0 then none
  else
    let chunk := List.replicate (min size.toNat 0x10000) (0xFF : Byte)
    some ((pieces chunk.length size.toNat).foldl
      (fun crc s => zlibCrc32 (chunk.take s.2) crc) 0#32).toNat

/-! ### The checksums -/

lemma crcBit_eq : crcBit = crcRegister.step := by
  funext c
  show (if c.getLsbD 0 then (c >>> 1) ^^^ 0xEDB88320#32 else c >>> 1) =
    c >>> 1 ^^^ if c.getLsbD 0 then 0xEDB88320#32 else 0#32
  split_ifs
  · rfl
  · rw [BitVec.xor_zero]

lemma crc32_eq_zlib (crc : BitVec 32) (data : List Byte) : crc32 crc data = zlibCrc32 data crc := by
  have hround : crcStep = fun c b => crcBit^[8] (c ^^^ b.setWidth 32) := by
    funext c b
    rw [crcStep_eq,crcBit_eq]
  rw [crc32,zlibCrc32,hround]

/-! ### The loops -/

lemma crc32_chunks (crc : BitVec 32) (chunks : List (List Byte)) :
    chunks.foldl crc32 crc = crc32 crc chunks.flatten := by
  have hfold := crc32_foldl id chunks crc
  rwa [List.flatMap_id] at hfold

lemma passOne_crc (fl : FlashReads) (start : ℕ) (ps : List (ℕ × ℕ)) (p : Pass) :
    (passOne fl start ps p).map Pass.crc =
      (ps.mapM fun s => fl.scanRead (start+s.1) s.2).map fun chunks =>
        crc32 p.crc chunks.flatten := by
  induction ps generalizing p with
  | nil => simp [passOne,crc32_nil]
  | cons s ps ih =>
    rw [passOne,List.mapM_cons]
    cases fl.scanRead (start+s.1) s.2 with
    | none => rfl
    | some bytes =>
      simp only [ih]
      cases ps.mapM fun s => fl.scanRead (start+s.1) s.2 with
      | none => rfl
      | some chunks => simp [crc32_append]

lemma scanSector_crc (g : Geometry) (fl : FlashReads) (sectorSz s : ℕ) :
    (scanSector g fl sectorSz s).crc =
      if g.isNand && (fl.readOob s).any (· ≠ 0xFF) then 0
      else ((pieces scanBufSize sectorSz).mapM fun q =>
        fl.scanRead (s*sectorSz+q.1) q.2).elim 0 fun chunks => crc32 0 chunks.flatten := by
  have hpass := passOne_crc fl (s*sectorSz) (pieces scanBufSize sectorSz) ⟨0,0,true,true⟩
  rw [scanSector]
  split
  next => rfl
  next =>
    cases hread : passOne fl (s*sectorSz) (pieces scanBufSize sectorSz) ⟨0,0,true,true⟩ with
    | none =>
      rw [hread,Option.map_none,eq_comm,Option.map_eq_none_iff] at hpass
      rw [hpass]
      rfl
    | some p =>
      rw [hread,Option.map_some,eq_comm,Option.map_eq_some_iff] at hpass
      obtain ⟨chunks,hchunks,hcrc⟩ := hpass
      rw [hchunks,Option.elim_some,hcrc]
      dsimp only
      split_ifs <;> rfl

lemma erased_pieces {k : ℕ} (hk : 0 < k) (n : ℕ) :
    (pieces k n).flatMap (fun s => (List.replicate k (0xFF : Byte)).take s.2) =
      List.replicate n 0xFF := by
  have hslice (a m : ℕ) : slice (fun _ => (0xFF : Byte)) a m = List.replicate m 0xFF := by
    rw [slice,List.map_const',List.length_range]
  have hpiece : ∀ s ∈ pieces k n,
      (List.replicate k (0xFF : Byte)).take s.2 = slice (fun _ => 0xFF) (0+s.1) s.2 := by
    intro s hs
    rw [hslice,List.take_replicate,Nat.min_eq_left (mem_pieces hk hs).2.2.1]
  rw [List.flatMap_congr hpiece,pieces_flatMap_slice hk,hslice]

lemma erasedRegionCrc_eq (size : ℤ) :
    erasedRegionCrc size =
      if size < 0 then none else some (crc32 0 (List.replicate size.toNat 0xFF)).toNat := by
  rw [erasedRegionCrc]
  split_ifs with hneg
  · rfl
  · simp only [List.length_replicate,← crc32_eq_zlib]
    rw [crc32_foldl
      fun s : ℕ × ℕ => (List.replicate (min size.toNat 0x10000) (0xFF : Byte)).take s.2]
    rcases Nat.eq_zero_or_pos size.toNat with hzero | hpos
    · rw [hzero]
      rfl
    · rw [erased_pieces (by omega)]
      rfl

/-- The agent's checksum over any chunks is the bitwise reflected checksum of the whole;
`flash_crc32`, the checksum of a scan and the host's checksum of an erased region are that of
the bytes they stand for. -/
theorem chunked_crc32_is_zlib :
    (∀ chunks : List (List Byte),chunks.foldl crc32 0 = zlibCrc32 chunks.flatten 0) ∧
    (∀ (dev : Dev) (addr len : ℕ),
      (dev.flashCrc32 addr len).1 = zlibCrc32 (dev.flashRead addr len).1 0) ∧
    (∀ (g : Geometry) (fl : FlashReads) (sectorSz s : ℕ),
      (scanSector g fl sectorSz s).crc =
        if g.isNand && (fl.readOob s).any (· ≠ 0xFF) then 0
        else ((pieces scanBufSize sectorSz).mapM fun q =>
          fl.scanRead (s*sectorSz+q.1) q.2).elim 0 fun chunks => zlibCrc32 chunks.flatten 0) ∧
    ∀ size : ℤ,erasedRegionCrc size =
      if size < 0 then none else some (zlibCrc32 (List.replicate size.toNat 0xFF) 0).toNat := by
  refine ⟨?_,?_,?_,?_⟩
  · intro chunks
    rw [crc32_chunks,crc32_eq_zlib]
  · intro dev addr len
    rw [Dev.flashCrc32_eq,Dev.flashRead_eq,crc32_eq_zlib]
  · intro g fl sectorSz s
    simp only [scanSector_crc,crc32_eq_zlib]
  · intro size
    rw [erasedRegionCrc_eq,crc32_eq_zlib]

end Defib.Crc32Agreement
