import Mathlib.Data.List.Basic
import Mathlib.Data.List.Infix
import Defib.Cobs
import Defib.Crc32
import Defib.AgentMachine

/-!
# Receiving a frame

`proto_recv` polls the line until a delimiter or until `rx_cobs` is full, decodes
into `rx_raw`, checks the checksum and copies the payload to its caller. Every
store is recorded with its buffer and index, so that safety is a statement about
what was stored where and not only about the answer.

What has arrived so far determines the state of the polling loop: the bytes since
the last delimiter or line error, and the pause since the last data byte. Safety
is decided by the first frame the line delivers, because the decoder writes
nearly as many bytes as it reads and `rx_raw` is the smaller buffer.
-/
namespace Defib.ProtoRecv
open List Words Crc32 AgentMachine

/-- What one poll yields, the software ring before the hardware: a byte, the -2 of a
break or framing error, or the -1 of an idle line. -/
inductive Input where
  | byte (b : Byte)
  | lineError
  | silence
  deriving DecidableEq, Repr

inductive Buffer where
  | rxCobs
  | rxRaw
  | data
  deriving DecidableEq, Repr

/-- `MAX_PAYLOAD` with the slack of each declaration; `data` is `cmd_buf`. -/
def Buffer.size : Buffer → ℕ
  | rxCobs => maxPayload+32
  | rxRaw => maxPayload+16
  | data => maxPayload+16

inductive Collected where
  | waiting
  | timeout (rest : List Input)
  | frame (cobs : List Byte) (rest : List Input)
  deriving DecidableEq, Repr

/-- The polling loop with `deadline` polls left and the bytes in `rx_cobs`; the second
component lists the indices stored to. `waiting` is a loop that has not ended. -/
def collect (limit deadline : ℕ) (cobs : List Byte) (inputs : List Input) : Collected × List ℕ :=
  if Buffer.size .rxCobs ≤ cobs.length then (.frame cobs inputs,[])
  else match inputs with
    | [] => (.waiting,[])
    | .byte b::rest =>
      if b = 0 then
        if cobs = [] then collect limit deadline cobs rest else (.frame cobs rest,[])
      else
        let r := collect limit limit (cobs++[b]) rest
        (r.1,cobs.length::r.2)
    | .lineError::rest => collect limit deadline [] rest
    | .silence::rest =>
      if deadline = 0 then (.timeout rest,[]) else collect limit (deadline-1) cobs rest

structure Reception where
  writes : List (Buffer × ℕ)
  answer : Option Frame
  rest : List Input

def stores (d : Buffer) (n : ℕ) : List (Buffer × ℕ) := (List.range n).map (Prod.mk d)

/-- From the decode on. `none` is the return of 0 that leaves `*len` alone. -/
def finish (cobs : List Byte) : List (Buffer × ℕ) × Option Frame :=
  let r := Cobs.decode cobs
  let raw := if r.2 then r.1 else []
  let payloadLen := raw.length-4
  if raw.length < 5 then (stores .rxRaw r.1.length,none)
  else if (crc32 0 (raw.take payloadLen)).toNat ≠ readLe32 raw payloadLen then
    (stores .rxRaw r.1.length,none)
  else
    (stores .rxRaw r.1.length++stores .data (payloadLen-1),
      some ⟨raw.headD 0,(raw.take payloadLen).drop 1⟩)

/-- `deadline = timeout_ms * 100`. -/
def pollLimit (timeoutMs : ℕ) : ℕ := u32 (timeoutMs*100)

def protoRecv (timeoutMs : ℕ) (inputs : List Input) : Reception :=
  let r := collect (pollLimit timeoutMs) (pollLimit timeoutMs) [] inputs
  let polled := r.2.map (Prod.mk Buffer.rxCobs)
  match r.1 with
  | .waiting => ⟨polled,none,[]⟩
  | .timeout rest => ⟨polled,none,rest⟩
  | .frame cobs rest => ⟨polled++(finish cobs).1,(finish cobs).2,rest⟩

/-- No store outside its buffer, and no reported length beyond the caller's. -/
def RecvSafe (timeoutMs : ℕ) (inputs : List Input) : Prop :=
  (∀ w ∈ (protoRecv timeoutMs inputs).writes, w.2 < w.1.size) ∧
    ∀ f ∈ (protoRecv timeoutMs inputs).answer, f.payload.length ≤ Buffer.size .data

/-! ## One poll -/

section Poll
variable {limit deadline : ℕ} {cobs : List Byte} {inputs rest : List Input}

lemma collect_full (h : Buffer.size .rxCobs ≤ cobs.length) :
    collect limit deadline cobs inputs = (.frame cobs inputs,[]) := by
  rw [collect.eq_def,if_pos h]

lemma collect_nil (h : cobs.length < Buffer.size .rxCobs) :
    collect limit deadline cobs [] = (.waiting,[]) := by
  rw [collect.eq_def,if_neg (Nat.not_le_of_lt h)]

lemma collect_empty : collect limit deadline [] (.byte 0::rest) =
    collect limit deadline [] rest := by
  rw [collect.eq_def,if_neg (by decide)]
  rfl

lemma collect_delimiter (h : cobs.length < Buffer.size .rxCobs) (hne : cobs ≠ []) :
    collect limit deadline cobs (.byte 0::rest) = (.frame cobs rest,[]) := by
  rw [collect.eq_def,if_neg (Nat.not_le_of_lt h)]
  exact if_neg hne

lemma collect_byte (h : cobs.length < Buffer.size .rxCobs) {b : Byte} (hb : b ≠ 0) :
    collect limit deadline cobs (.byte b::rest) =
      ((collect limit limit (cobs++[b]) rest).1,
        cobs.length::(collect limit limit (cobs++[b]) rest).2) := by
  rw [collect.eq_def,if_neg (Nat.not_le_of_lt h)]
  exact if_neg hb

lemma collect_lineError (h : cobs.length < Buffer.size .rxCobs) :
    collect limit deadline cobs (.lineError::rest) = collect limit deadline [] rest := by
  rw [collect.eq_def,if_neg (Nat.not_le_of_lt h)]

lemma collect_expired (h : cobs.length < Buffer.size .rxCobs) :
    collect limit 0 cobs (.silence::rest) = (.timeout rest,[]) := by
  rw [collect.eq_def,if_neg (Nat.not_le_of_lt h)]
  rfl

lemma collect_silence (h : cobs.length < Buffer.size .rxCobs) :
    collect limit (deadline+1) cobs (.silence::rest) = collect limit deadline cobs rest := by
  rw [collect.eq_def,if_neg (Nat.not_le_of_lt h)]
  rfl

end Poll

/-! ## The stores of one call -/

lemma collect_stores (limit deadline : ℕ) (cobs : List Byte) (inputs : List Input) :
    ∀ i ∈ (collect limit deadline cobs inputs).2, i < Buffer.size .rxCobs := by
  induction inputs generalizing deadline cobs with
  | nil =>
    rcases Nat.lt_or_ge cobs.length (Buffer.size .rxCobs) with h | h
    · simp [collect_nil h]
    · simp [collect_full h]
  | cons x rest ih =>
    rcases Nat.lt_or_ge cobs.length (Buffer.size .rxCobs) with h | h
    swap
    · simp [collect_full h]
    cases x with
    | byte b =>
      by_cases hb : b = 0
      · subst hb
        by_cases hempty : cobs = []
        · rw [hempty,collect_empty]
          exact ih _ _
        · rw [collect_delimiter h hempty]
          simp
      · rw [collect_byte h hb]
        simp only [mem_cons,forall_eq_or_imp]
        exact ⟨h,ih _ _⟩
    | lineError =>
      rw [collect_lineError h]
      exact ih _ _
    | silence =>
      cases deadline with
      | zero => simp [collect_expired h]
      | succ deadline =>
        rw [collect_silence h]
        exact ih _ _

lemma mem_stores {d : Buffer} {n : ℕ} {w : Buffer × ℕ} :
    w ∈ stores d n ↔ w.1 = d ∧ w.2 < n := by
  obtain ⟨e,i⟩ := w
  simp only [stores,mem_map,mem_range,Prod.mk.injEq]
  constructor
  · rintro ⟨j,hj,rfl,rfl⟩
    exact ⟨rfl,hj⟩
  · rintro ⟨rfl,hi⟩
    exact ⟨i,hi,rfl,rfl⟩

lemma stores_inside (d : Buffer) (n : ℕ) : (∀ w ∈ stores d n, w.2 < w.1.size) ↔ n ≤ d.size := by
  constructor
  · intro h
    by_contra hn
    exact lt_irrefl _ (h (d,d.size) (mem_stores.mpr ⟨rfl,Nat.lt_of_not_le hn⟩))
  · intro hn w hw
    obtain ⟨hd,hw⟩ := mem_stores.mp hw
    rw [hd]
    exact lt_of_lt_of_le hw hn

lemma finish_cases (cobs : List Byte) :
    finish cobs = (stores .rxRaw (Cobs.decode cobs).1.length,none) ∨
      ∃ f : Frame, f.payload.length+5 = (Cobs.decode cobs).1.length ∧
        finish cobs = (stores .rxRaw (Cobs.decode cobs).1.length++stores .data f.payload.length,
          some f) := by
  unfold finish
  dsimp only
  split_ifs with hend hshort hcrc
  · exact .inl rfl
  · exact .inl rfl
  · have hcopied : ((Cobs.decode cobs).1.take ((Cobs.decode cobs).1.length-4)).length =
        (Cobs.decode cobs).1.length-4 := by
      rw [length_take,Nat.min_eq_left (Nat.sub_le _ _)]
    refine .inr ⟨⟨_,_⟩,?_,by rw [length_drop,hcopied]⟩
    rw [length_drop,hcopied]
    omega
  · exact .inl rfl
  · exact .inl rfl
  · exact absurd (by decide) ‹¬([] : List Byte).length < 5›

lemma recvSafe_iff_decoded (timeoutMs : ℕ) (inputs : List Input) : RecvSafe timeoutMs inputs ↔
    ∀ cobs rest, (collect (pollLimit timeoutMs) (pollLimit timeoutMs) [] inputs).1 =
      .frame cobs rest → (Cobs.decode cobs).1.length ≤ Buffer.size .rxRaw := by
  have hpolled : ∀ w ∈ (collect (pollLimit timeoutMs) (pollLimit timeoutMs) [] inputs).2.map
      (Prod.mk Buffer.rxCobs), w.2 < w.1.size := by
    intro w hw
    obtain ⟨i,hi,rfl⟩ := mem_map.mp hw
    exact collect_stores _ _ _ _ i hi
  unfold RecvSafe protoRecv
  dsimp only
  cases hc : (collect (pollLimit timeoutMs) (pollLimit timeoutMs) [] inputs).1 with
  | waiting => simpa using hpolled
  | timeout rest => simpa using hpolled
  | frame cobs rest =>
    have hsize : Buffer.size .rxRaw = Buffer.size .data := rfl
    simp only [forall_mem_append,Collected.frame.injEq]
    rcases finish_cases cobs with h | ⟨f,hlen,h⟩
    · simp only [h,stores_inside]
      constructor
      · rintro ⟨⟨-,hraw⟩,-⟩ cobs' rest' ⟨rfl,-⟩
        exact hraw
      · intro hraw
        exact ⟨⟨hpolled,hraw cobs rest ⟨rfl,rfl⟩⟩,by simp⟩
    · simp only [h,forall_mem_append,stores_inside]
      constructor
      · rintro ⟨⟨-,hraw,-⟩,-⟩ cobs' rest' ⟨rfl,-⟩
        exact hraw
      · intro hraw
        have hdecoded := hraw cobs rest ⟨rfl,rfl⟩
        refine ⟨⟨hpolled,hdecoded,by omega⟩,?_⟩
        intro g hg
        obtain rfl := Option.mem_some_iff.mp hg
        omega

/-! ## What the line delivers -/

def Input.isData : Input → Bool
  | byte b => b ≠ 0
  | _ => false

def Input.cuts : Input → Bool
  | byte b => b = 0
  | lineError => true
  | silence => false

def Input.byte? : Input → Option Byte
  | byte b => some b
  | _ => none

def pause (heard : List Input) : ℕ := (heard.reverse.takeWhile (!·.isData)).count .silence

/-- Data bytes since the last delimiter or line error. -/
def pending (heard : List Input) : List Byte :=
  ((heard.reverse.takeWhile (!·.cuts)).filterMap Input.byte?).reverse

lemma pause_snoc (p : List Input) (x : Input) : pause (p++[x]) =
    if x.isData then 0 else pause p+(if x = .silence then 1 else 0) := by
  rw [pause,reverse_append,reverse_singleton,singleton_append,takeWhile_cons]
  cases h : x.isData with
  | true => rfl
  | false => simp [pause,count_cons]

lemma pending_snoc (p : List Input) (x : Input) : pending (p++[x]) =
    if x.cuts then [] else pending p++x.byte?.toList := by
  rw [pending,reverse_append,reverse_singleton,singleton_append,takeWhile_cons]
  cases h : x.cuts with
  | true => rfl
  | false =>
    cases hb : x.byte? with
    | none => simp [pending,hb]
    | some b => simp [pending,hb]

lemma pending_cut (p : List Input) {x : Input} (hx : x.cuts = true) : pending (p++[x]) = [] := by
  rw [pending_snoc,if_pos hx]

lemma pending_byte (p : List Input) {b : Byte} (hb : b ≠ 0) :
    pending (p++[.byte b]) = pending p++[b] := by
  rw [pending_snoc,if_neg (by simpa only [Input.cuts,decide_eq_true_eq] using hb)]
  rfl

lemma pending_nonzero (p : List Input) : ∀ b ∈ pending p, b ≠ 0 := by
  induction p using List.reverseRecOn with
  | nil => nofun
  | append_singleton p x ih =>
    rw [pending_snoc]
    cases x with
    | byte c =>
      by_cases hc : c = 0
      · simp [Input.cuts,hc]
      · simp only [Input.cuts,hc,decide_false,Bool.false_eq_true,if_false,Input.byte?,
          Option.toList_some,mem_append,mem_singleton]
        rintro b (hb | rfl)
        · exact ih b hb
        · exact hc
    | lineError => nofun
    | silence => simpa [Input.cuts,Input.byte?] using ih

/-- The call is still polling once `heard` has arrived: no pause exceeded the timeout, no
delimiter closed a frame and `rx_cobs` never filled up. -/
def Waits (limit : ℕ) (heard : List Input) : Prop :=
  (∀ q, q <+: heard → pause q ≤ limit ∧ (pending q).length < Buffer.size .rxCobs) ∧
    ∀ q, q++[.byte 0] <+: heard → pending q = []

/-- The first frame of the line: the bytes before the first delimiter that closes one,
or those that fill the buffer. -/
def Delivers (limit : ℕ) (inputs : List Input) (cobs : List Byte) : Prop :=
  (∃ p, Waits limit p ∧ p++[.byte 0] <+: inputs ∧ pending p = cobs ∧ cobs ≠ []) ∨
    ∃ p b, Waits limit p ∧ p++[.byte b] <+: inputs ∧ b ≠ 0 ∧ pending p++[b] = cobs ∧
      cobs.length = Buffer.size .rxCobs

lemma waits_nil (limit : ℕ) : Waits limit [] := by
  constructor
  · intro q hq
    obtain rfl := prefix_nil.mp hq
    exact ⟨Nat.zero_le _,by decide⟩
  · intro q hq
    simp at hq

lemma waits_snoc (limit : ℕ) (p : List Input) (x : Input) : Waits limit (p++[x]) ↔
    Waits limit p ∧ pause (p++[x]) ≤ limit ∧ (pending (p++[x])).length < Buffer.size .rxCobs ∧
      (x = .byte 0 → pending p = []) := by
  constructor
  · rintro ⟨hbefore,hcut⟩
    obtain ⟨hpause,hpending⟩ := hbefore _ (prefix_refl _)
    refine ⟨⟨fun q hq => hbefore q (hq.trans (prefix_append _ _)),
      fun q hq => hcut q (hq.trans (prefix_append _ _))⟩,hpause,hpending,?_⟩
    rintro rfl
    exact hcut p (prefix_refl _)
  · rintro ⟨⟨hbefore,hcut⟩,hpause,hpending,hlast⟩
    constructor
    · intro q hq
      rcases prefix_concat_iff.mp hq with rfl | hq
      · exact ⟨hpause,hpending⟩
      · exact hbefore q hq
    · intro q hq
      rcases prefix_concat_iff.mp hq with hq | hq
      · obtain ⟨rfl,hx⟩ := append_inj' hq rfl
        exact hlast (singleton_inj.mp hx).symm
      · exact hcut q hq

variable {limit : ℕ}

lemma collect_step {p : List Input} {x : Input} (h : Waits limit (p++[x]))
    (l : List Input) : (collect limit (limit-pause p) (pending p) (x::l)).1 =
      (collect limit (limit-pause (p++[x])) (pending (p++[x])) l).1 := by
  obtain ⟨hp,hpause,-,hcut⟩ := (waits_snoc limit p x).mp h
  have hroom := (hp.1 p (prefix_refl _)).2
  rw [pause_snoc] at hpause
  rw [pause_snoc,pending_snoc]
  cases x with
  | byte b =>
    by_cases hb : b = 0
    · subst hb
      rw [hcut rfl,collect_empty]
      rfl
    · have hdata : (Input.byte b).isData = true := decide_eq_true hb
      rw [collect_byte hroom hb,← pending_snoc,pending_byte p hb,if_pos hdata]
      rfl
  | lineError =>
    rw [collect_lineError hroom]
    rfl
  | silence =>
    simp only [Input.isData,Bool.false_eq_true,if_false,if_true] at hpause
    obtain ⟨d,hd⟩ : ∃ d, limit-pause p = d+1 := ⟨limit-pause p-1,by omega⟩
    obtain rfl : d = limit-(pause p+1) := by omega
    rw [hd,collect_silence hroom]
    simp [Input.isData,Input.cuts,Input.byte?]

lemma collect_waits {p : List Input} (h : Waits limit p) (l : List Input) :
    (collect limit limit [] (p++l)).1 = (collect limit (limit-pause p) (pending p) l).1 := by
  induction p using List.reverseRecOn generalizing l with
  | nil => rfl
  | append_singleton p x ih =>
    rw [append_assoc,ih ((waits_snoc limit p x).mp h).1,singleton_append,
      collect_step h]

lemma collect_ends {p : List Input} (h : Waits limit p) (l : List Input) :
    (∃ q rest, l = q++.byte 0::rest ∧ Waits limit (p++q) ∧ pending (p++q) ≠ [] ∧
      (collect limit (limit-pause p) (pending p) l).1 = .frame (pending (p++q)) rest) ∨
    (∃ q b rest, l = q++.byte b::rest ∧ Waits limit (p++q) ∧ b ≠ 0 ∧
      (pending (p++q)++[b]).length = Buffer.size .rxCobs ∧
      (collect limit (limit-pause p) (pending p) l).1 = .frame (pending (p++q)++[b]) rest) ∨
    (∃ q rest, l = q++.silence::rest ∧ Waits limit (p++q) ∧ pause (p++q) = limit ∧
      (collect limit (limit-pause p) (pending p) l).1 = .timeout rest) ∨
    (Waits limit (p++l) ∧ (collect limit (limit-pause p) (pending p) l).1 = .waiting) := by
  induction l generalizing p with
  | nil =>
    refine .inr (.inr (.inr ⟨by rwa [append_nil],?_⟩))
    rw [collect_nil (h.1 p (prefix_refl _)).2]
  | cons x l ih =>
    have hp := h.1 p (prefix_refl _)
    -- Either the call goes on waiting, or this poll is the one that ends it.
    by_cases hnext : Waits limit (p++[x])
    · rw [collect_step hnext]
      have hassoc : ∀ q, p++[x]++q = p++x::q := fun q => by simp
      rcases ih hnext with ⟨q,rest,rfl,hq⟩ | ⟨q,b,rest,rfl,hq⟩ | ⟨q,rest,rfl,hq⟩ | hq
      · exact .inl ⟨x::q,rest,rfl,by rwa [hassoc] at hq⟩
      · exact .inr (.inl ⟨x::q,b,rest,rfl,by rwa [hassoc] at hq⟩)
      · exact .inr (.inr (.inl ⟨x::q,rest,rfl,by rwa [hassoc] at hq⟩))
      · exact .inr (.inr (.inr (by rwa [hassoc] at hq)))
    rw [waits_snoc,pause_snoc] at hnext
    have hhere : Waits limit (p++[]) := by rwa [append_nil]
    cases x with
    | byte b =>
      by_cases hb : b = 0
      · subst hb
        have hne : pending p ≠ [] := by
          intro hempty
          apply hnext
          refine ⟨h,hp.1,?_,fun _ => hempty⟩
          rw [pending_cut p rfl]
          decide
        refine .inl ⟨[],l,rfl,hhere,?_,?_⟩
        · rwa [append_nil]
        · rw [collect_delimiter hp.2 hne,append_nil]
      · have hfull : Buffer.size .rxCobs ≤ (pending p++[b]).length := by
          rw [← pending_byte p hb]
          by_contra hroom
          apply hnext
          refine ⟨h,?_,Nat.lt_of_not_le hroom,fun h0 => absurd (Input.byte.inj h0) hb⟩
          have hdata : (Input.byte b).isData = true := decide_eq_true hb
          rw [if_pos hdata]
          exact Nat.zero_le _
        refine .inr (.inl ⟨[],b,l,rfl,hhere,hb,?_,?_⟩)
        · rw [append_nil]
          rw [length_append,length_singleton] at hfull ⊢
          omega
        · rw [collect_byte hp.2 hb,collect_full hfull,append_nil]
    | lineError =>
      refine absurd ⟨h,hp.1,?_,nofun⟩ hnext
      rw [pending_cut p rfl]
      decide
    | silence =>
      have hexpired : limit ≤ pause p := by
        by_contra hleft
        apply hnext
        refine ⟨h,?_,?_,nofun⟩
        · simp only [Input.isData,Bool.false_eq_true,if_false,if_true]
          omega
        · rw [pending_snoc]
          simpa [Input.cuts,Input.byte?] using hp.2
      refine .inr (.inr (.inl ⟨[],l,rfl,hhere,?_,?_⟩))
      · rw [append_nil]
        omega
      · rw [Nat.sub_eq_zero_of_le hexpired,collect_expired hp.2]

lemma collect_frame_iff (limit : ℕ) (inputs : List Input) (cobs : List Byte) :
    (∃ rest, (collect limit limit [] inputs).1 = .frame cobs rest) ↔
      Delivers limit inputs cobs := by
  constructor
  · rintro ⟨rest,h⟩
    have hends := collect_ends (waits_nil limit) inputs
    simp only [nil_append] at hends
    have hstart : collect limit (limit-pause []) (pending []) inputs =
        collect limit limit [] inputs := rfl
    rw [hstart,h] at hends
    rcases hends with ⟨q,rest',rfl,hq,hne,heq⟩ | ⟨q,b,rest',rfl,hq,hb,hlen,heq⟩ |
      ⟨q,rest',rfl,hq,hpause,heq⟩ | ⟨hq,heq⟩
    · obtain ⟨rfl,rfl⟩ := Collected.frame.inj heq
      exact .inl ⟨q,hq,⟨rest,by simp⟩,rfl,hne⟩
    · obtain ⟨rfl,rfl⟩ := Collected.frame.inj heq
      exact .inr ⟨q,b,hq,⟨rest,by simp⟩,hb,rfl,hlen⟩
    · cases heq
    · cases heq
  · rintro (⟨p,hp,⟨l,rfl⟩,rfl,hne⟩ | ⟨p,b,hp,⟨l,rfl⟩,hb,rfl,hfull⟩)
    · refine ⟨l,?_⟩
      rw [append_assoc,collect_waits hp,singleton_append,
        collect_delimiter (hp.1 p (prefix_refl _)).2 hne]
    · refine ⟨l,?_⟩
      rw [append_assoc,collect_waits hp,singleton_append,
        collect_byte (hp.1 p (prefix_refl _)).2 hb,collect_full hfull.ge]

lemma Delivers.nonzero {inputs : List Input} {cobs : List Byte}
    (h : Delivers limit inputs cobs) : cobs ≠ [] ∧ ∀ b ∈ cobs, b ≠ 0 := by
  rcases h with ⟨p,-,-,rfl,hne⟩ | ⟨p,b,-,-,hb,rfl,-⟩
  · exact ⟨hne,pending_nonzero p⟩
  · rw [← pending_byte p hb]
    exact ⟨by simp [pending_byte p hb],pending_nonzero _⟩

/-- A call is safe exactly if the first frame of the line, less one byte and less its full
inner blocks, fits `rx_raw`. -/
theorem proto_recv_safe_iff (timeoutMs : ℕ) (inputs : List Input) : RecvSafe timeoutMs inputs ↔
    ∀ cobs, Delivers (pollLimit timeoutMs) inputs cobs →
      cobs.length ≤ 1041+Cobs.fullBlocks cobs := by
  have hraw : Buffer.size .rxRaw = 1040 := rfl
  rw [recvSafe_iff_decoded,hraw]
  constructor
  · intro h cobs hcobs
    obtain ⟨rest,hrest⟩ := (collect_frame_iff _ _ _).mpr hcobs
    have hdecoded := h cobs rest hrest
    have hlen := Cobs.decode_length hcobs.nonzero.1 hcobs.nonzero.2
    omega
  · intro h cobs rest hrest
    have hcobs := (collect_frame_iff _ _ _).mp ⟨rest,hrest⟩
    have hbound := h cobs hcobs
    have hlen := Cobs.decode_length hcobs.nonzero.1 hcobs.nonzero.2
    omega

/-! ## Data bytes in a row -/

lemma collect_run (limit : ℕ) (cobs xs : List Byte) (l : List Input) (hxs : ∀ b ∈ xs, b ≠ 0)
    (h : cobs.length+xs.length ≤ Buffer.size .rxCobs) :
    (collect limit limit cobs (xs.map .byte++l)).1 = (collect limit limit (cobs++xs) l).1 := by
  induction xs generalizing cobs with
  | nil => simp
  | cons b xs ih =>
    rw [length_cons] at h
    have hrest := ih (cobs++[b]) (fun c hc => hxs c (mem_cons_of_mem _ hc))
      (by rw [length_append,length_singleton]; omega)
    rw [map_cons,cons_append,collect_byte (by omega) (hxs b (by simp)),hrest]
    simp

lemma fullLoop_ones (n k : ℕ) : Cobs.fullLoop n (List.replicate k 1) = 0 := by
  induction n generalizing k with
  | zero => rfl
  | succ n ih =>
    cases k with
    | zero => rfl
    | succ k =>
      have hone : (1 : Byte).toNat-1 = 0 := rfl
      rw [replicate_succ,Cobs.fullLoop,hone,drop_zero]
      simpa using ih k

lemma collect_ones (limit n : ℕ) (hn : n = Buffer.size .rxCobs) :
    (collect limit limit [] (List.replicate n (.byte 1))).1 = .frame (List.replicate n 1) [] ∧
      (Cobs.decode (List.replicate n 1)).1.length+1 = n := by
  have hones : ∀ b ∈ List.replicate n (1 : Byte), b ≠ 0 := by
    intro b hb
    rw [eq_of_mem_replicate hb]
    decide
  have hlen : (List.replicate n (1 : Byte)).length = n := length_replicate
  have hpos : 0 < Buffer.size .rxCobs := by decide
  have hne : List.replicate n (1 : Byte) ≠ [] := length_pos_iff.mp (by omega)
  constructor
  · have hrun := collect_run limit [] _ [] hones (by rw [length_nil,hlen]; omega)
    have hfull : Buffer.size .rxCobs ≤ (List.replicate n (1 : Byte)).length := by omega
    rwa [map_replicate,append_nil,nil_append,collect_full hfull] at hrun
  · have hdecode := Cobs.decode_length hne hones
    rwa [Cobs.fullBlocks,fullLoop_ones,Nat.add_zero,hlen] at hdecode

/-- Undelimited ones fill `rx_cobs` and decode to 1055 zeros. -/
theorem undelimited_run_overflows : ¬RecvSafe 1000 (List.replicate 1056 (.byte 1)) := by
  rw [recvSafe_iff_decoded]
  intro h
  obtain ⟨hframe,hlen⟩ := collect_ones (pollLimit 1000) 1056 rfl
  have hraw : Buffer.size .rxRaw = 1040 := rfl
  have hstored := h _ _ hframe
  omega

/-! ## Packets -/

/-- Host `build_packet`, and what `proto_send` puts on the line. -/
def buildPacket (f : Frame) : List Byte :=
  let raw := f.cmd::f.payload
  Cobs.encode (raw++writeLe32 (crc32 0 raw).toNat)++[0]

lemma finish_encode (f : Frame) :
    (finish (Cobs.encode (f.cmd::f.payload++writeLe32 (crc32 0 (f.cmd::f.payload)).toNat))).2 =
      some f := by
  have hraw : ∀ crc : ℕ, ((f.cmd::f.payload)++writeLe32 crc).length-4 =
      (f.cmd::f.payload).length := by
    intro crc
    rw [length_append,writeLe32_length,Nat.add_sub_cancel]
  have hcrc : readLe32 ((f.cmd::f.payload)++writeLe32 (crc32 0 (f.cmd::f.payload)).toNat)
      (f.cmd::f.payload).length = (crc32 0 (f.cmd::f.payload)).toNat := by
    have hread := readLe32_writeLe32 (crc32 0 (f.cmd::f.payload)).toNat (BitVec.isLt _) []
    rwa [append_nil,← readLe32_append (f.cmd::f.payload)] at hread
  rw [finish]
  simp only [Cobs.decode_encode,if_true,hraw,take_left,hcrc,ne_eq,not_true_eq_false,if_false]
  rw [if_neg (by simp)]
  rfl

/-- A packet of at most `MAX_PAYLOAD` bytes of data arrives as it was sent, and receiving it
is safe. -/
theorem protoRecv_buildPacket (timeoutMs : ℕ) (f : Frame) (rest : List Input)
    (h : f.payload.length ≤ maxPayload) :
    let r := protoRecv timeoutMs ((buildPacket f).map .byte++rest)
    r.answer = some f ∧ r.rest = rest ∧
      RecvSafe timeoutMs ((buildPacket f).map .byte++rest) := by
  set cobs := Cobs.encode (f.cmd::f.payload++writeLe32 (crc32 0 (f.cmd::f.payload)).toNat)
    with hcobs
  have hmax : maxPayload = 1024 := rfl
  have hsize : Buffer.size .rxCobs = 1056 := rfl
  have hlen : cobs.length < Buffer.size .rxCobs := by
    have hbound := Cobs.encode_length
      (f.cmd::f.payload++writeLe32 (crc32 0 (f.cmd::f.payload)).toNat)
    rw [← hcobs,length_append,writeLe32_length,length_cons] at hbound
    omega
  have hcollect : (collect (pollLimit timeoutMs) (pollLimit timeoutMs) []
      ((buildPacket f).map .byte++rest)).1 = .frame cobs rest := by
    rw [buildPacket,map_append,append_assoc,
      collect_run _ _ _ _ (Cobs.encode_nonzero _) (by rw [length_nil,Nat.zero_add]; exact hlen.le)]
    rw [nil_append,map_singleton,singleton_append]
    rw [collect_delimiter hlen (Cobs.encodeFrom_ne_nil _ _)]
  refine ⟨?_,?_,?_⟩
  · rw [protoRecv,hcollect]
    exact finish_encode f
  · rw [protoRecv,hcollect]
  · rw [recvSafe_iff_decoded,hcollect]
    intro cobs' rest' h'
    obtain ⟨rfl,-⟩ := Collected.frame.inj h'
    have hraw : Buffer.size .rxRaw = 1040 := rfl
    rw [hcobs,Cobs.decode_encode,length_append,writeLe32_length,length_cons]
    omega

def receptions (timeoutMs : ℕ) : ℕ → List Input → List (Option Frame) × List Input
  | 0,inputs => ([],inputs)
  | n+1,inputs =>
    let r := protoRecv timeoutMs inputs
    let rs := receptions timeoutMs n r.rest
    (r.answer::rs.1,rs.2)

/-- Packets that were sent one after the other are received one after the other. -/
theorem packets_received (timeoutMs : ℕ) (fs : List Frame) (rest : List Input)
    (h : ∀ f ∈ fs,f.payload.length ≤ maxPayload) :
    receptions timeoutMs fs.length ((fs.flatMap buildPacket).map .byte++rest) =
      (fs.map some,rest) := by
  induction fs with
  | nil => rfl
  | cons f fs ih =>
    rw [forall_mem_cons] at h
    obtain ⟨hanswer,hrest,-⟩ := protoRecv_buildPacket timeoutMs f
      ((fs.flatMap buildPacket).map .byte++rest) h.1
    rw [flatMap_cons,map_append,append_assoc,length_cons,receptions,hanswer,
      hrest,ih h.2]
    rfl

theorem two_packets_received :
    (receptions 100 2 (([⟨rspReady,[0x44]⟩,⟨rspAck,[0]⟩] : List Frame).flatMap buildPacket |>.map
      .byte)).1 = [some ⟨rspReady,[0x44]⟩,some ⟨rspAck,[0]⟩] := by
  have hpackets := packets_received 100 [⟨rspReady,[0x44]⟩,⟨rspAck,[0]⟩] [] (by simp [maxPayload])
  rw [append_nil] at hpackets
  exact congrArg Prod.fst hpackets

end Defib.ProtoRecv
