import Defib.Endian
import Defib.RockusbCodec
import Defib.Spans

/-!
# Code uploads to the boot ROM

A blob is sent in control transfers of at most 4096 bytes, with its CRC-16 at the end. A
transfer of less than 4096 bytes ends the upload, so that one byte is sent when the last
chunk is full; a blob that would leave the second byte of the CRC to a chunk of its own is
lengthened by a zero before it is encrypted.
-/
namespace Defib.Maskrom
open List Words Endian Spans RockusbCodec

def chunkSize : ℕ := 4096

def buildMaskromChunks (blob : List Byte) (useRc4 : Bool) : List (List Byte) :=
  let remainder := blob.length%chunkSize
  let needsTerminator := remainder = chunkSize-2
  let payload := if remainder = chunkSize-1 then blob++[0x00] else blob
  let payload := if useRc4 then rc4 payload rkRc4Key else payload
  let payload := payload++toBe 2 (rkCrc16 payload crc16Init)
  slices chunkSize payload++if needsTerminator then [[0x00]] else []

/-! ### The boot ROM -/

/-- What is received, without a one-byte chunk that marks the end. -/
def withoutMarker (chunks : List (List Byte)) : List (List Byte) :=
  if chunks.getLast?.any (·.length = 1) then chunks.dropLast else chunks

/-- The boot ROM takes the two last bytes for the checksum of those before. -/
def romReceive (useRc4 : Bool) (chunks : List (List Byte)) : Option (List Byte) :=
  let data := (withoutMarker chunks).flatten
  let body := data.take (data.length-2)
  if 2 ≤ data.length ∧ ofBe (data.drop (data.length-2)) = rkCrc16 body crc16Init then
    some (if useRc4 then rc4 body rkRc4Key else body)
  else none

section Upload
variable (blob : List Byte) (useRc4 : Bool)

/-- The blob with the zero that keeps the checksum together. -/
def padded : List Byte := if blob.length%chunkSize = chunkSize-1 then blob++[0x00] else blob

def body : List Byte := if useRc4 then rc4 (padded blob) rkRc4Key else padded blob

def payload : List Byte := body blob useRc4++toBe 2 (rkCrc16 (body blob useRc4) crc16Init)

lemma buildMaskromChunks_eq :
    buildMaskromChunks blob useRc4 = slices chunkSize (payload blob useRc4)++
      if blob.length%chunkSize = chunkSize-2 then [[0x00]] else [] :=
  rfl

lemma body_length : (body blob useRc4).length = (padded blob).length := by
  rw [body]
  split_ifs
  · exact rc4_length _ _
  · rfl

lemma payload_length : (payload blob useRc4).length = (padded blob).length+2 := by
  rw [payload,length_append,body_length,toBe_length]

/-- Padding avoids the one remainder that would part the checksum, and leaves the one that
fills the last chunk. -/
theorem padded_remainder :
    (padded blob).length%4096 ≠ 4095 ∧
      ((padded blob).length%4096 = 4094 ↔ blob.length%chunkSize = chunkSize-2) := by
  have hsize : chunkSize = 4096 := rfl
  rw [padded]
  split_ifs with hlast
  · rw [length_append,length_singleton]
    rw [hsize] at hlast ⊢
    omega
  · rw [hsize] at hlast ⊢
    omega

lemma payload_ne_nil : payload blob useRc4 ≠ [] := by
  rw [← length_pos_iff,payload_length]
  omega

lemma withoutMarker_chunks :
    withoutMarker (buildMaskromChunks blob useRc4) = slices chunkSize (payload blob useRc4) := by
  obtain ⟨hnot,hfull⟩ := padded_remainder blob
  rw [buildMaskromChunks_eq,withoutMarker]
  split_ifs with hmark hone hone
  · rw [dropLast_concat]
  · rw [getLast?_concat] at hone
    exact absurd rfl hone
  · obtain ⟨init,last,hslices,hlen⟩ :=
      slices_last (show 0 < chunkSize by decide) (payload_ne_nil blob useRc4)
    rw [append_nil,hslices,getLast?_concat] at hone
    rw [payload_length,chunkSize] at hlen
    have hlen1 : last.length = 1 := by simpa using hone
    rw [← hfull] at hmark
    omega
  · rw [append_nil]

lemma last_chunk_short :
    ∃ last,(buildMaskromChunks blob useRc4).getLast? = some last ∧ last.length < chunkSize := by
  obtain ⟨hnot,hfull⟩ := padded_remainder blob
  rw [buildMaskromChunks_eq]
  split_ifs with hmark
  · exact ⟨[0x00],getLast?_concat,by decide⟩
  · obtain ⟨init,last,hslices,hlen⟩ :=
      slices_last (show 0 < chunkSize by decide) (payload_ne_nil blob useRc4)
    refine ⟨last,?_,?_⟩
    · rw [append_nil,hslices,getLast?_concat]
    · rw [payload_length,chunkSize] at hlen
      rw [← hfull] at hmark
      rw [chunkSize]
      omega

lemma checksum_not_cut {pre : List (List Byte)} (h : pre <+: buildMaskromChunks blob useRc4) :
    pre.flatten.length+1 ≠ (payload blob useRc4).length := by
  obtain ⟨hnot,_⟩ := padded_remainder blob
  have hslices : pre <+: slices chunkSize (payload blob useRc4) →
      pre.flatten.length+1 ≠ (payload blob useRc4).length := by
    intro hpre
    have hcut := slices_cut hpre
    rw [payload_length,chunkSize] at hcut
    rw [payload_length]
    omega
  rw [buildMaskromChunks_eq] at h
  split_ifs at h
  · rcases prefix_concat_iff.mp h with rfl | hpre
    · rw [flatten_append,slices_flatten (by decide),length_append]
      omega
    · exact hslices hpre
  · rw [append_nil] at h
    exact hslices h

lemma romReceive_chunks :
    romReceive useRc4 (buildMaskromChunks blob useRc4) = some (padded blob) := by
  have hlen := payload_length blob useRc4
  have hbody : (payload blob useRc4).take ((payload blob useRc4).length-2) = body blob useRc4 := by
    rw [hlen,Nat.add_sub_cancel,← body_length blob useRc4,payload,take_left]
  have hcrc : (payload blob useRc4).drop ((payload blob useRc4).length-2) =
      toBe 2 (rkCrc16 (body blob useRc4) crc16Init) := by
    rw [hlen,Nat.add_sub_cancel,← body_length blob useRc4,payload,drop_left]
  have hopen : (if useRc4 then rc4 (body blob useRc4) rkRc4Key else body blob useRc4) =
      padded blob := by
    rw [body]
    split_ifs
    · exact rc4_rc4 _ _
    · rfl
  have hread : ofBe (toBe 2 (rkCrc16 (body blob useRc4) crc16Init)) =
      rkCrc16 (body blob useRc4) crc16Init := ofBe_toBe (rkCrc16_lt _ _)
  rw [romReceive,withoutMarker_chunks,slices_flatten (by decide)]
  simp only [hbody,hcrc,hopen]
  rw [if_pos ⟨by omega,hread⟩]

/-- The chunks of an upload: none is too long, the last one is short, the checksum is never
cut, and the boot ROM gets the blob back, with a zero when its length is 4095 modulo 4096. -/
theorem maskrom_chunks_deliver :
    (∀ c ∈ buildMaskromChunks blob useRc4,c.length ≤ 4096) ∧
    (∃ last,(buildMaskromChunks blob useRc4).getLast? = some last ∧ last.length < 4096) ∧
    (∀ pre,pre <+: buildMaskromChunks blob useRc4 →
      pre.flatten.length+1 ≠ (withoutMarker (buildMaskromChunks blob useRc4)).flatten.length) ∧
    romReceive useRc4 (buildMaskromChunks blob useRc4) =
      some (if blob.length%4096 = 4095 then blob++[0x00] else blob) := by
  refine ⟨?_,last_chunk_short blob useRc4,?_,romReceive_chunks blob useRc4⟩
  · intro c hc
    rw [buildMaskromChunks_eq] at hc
    rcases mem_append.mp hc with hslice | hmark
    · exact mem_slices_length hslice
    · split_ifs at hmark
      · rw [mem_singleton.mp hmark]
        decide
      · cases hmark
  · intro pre hpre
    rw [withoutMarker_chunks,slices_flatten (by decide)]
    exact checksum_not_cut blob useRc4 hpre

end Upload

end Defib.Maskrom
