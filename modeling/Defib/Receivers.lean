import Defib.CobsCodecs
import Defib.ProtoRecv

/-!
# Three receivers of one stream

The host has two receivers. Both scan what a read gave them byte by byte and keep
what follows a packet for the next call; they differ in when they look at the kept
bytes. The agent polls byte by byte and keeps nothing. On a stream whose segments
fit all buffers, the results of successive calls are the packets of the stream, however
the stream was cut into reads. The agent's return of 0 for an error makes a packet with
command 0 invisible, so its packets are those with another command.
-/
namespace Defib.Receivers
open List Words Crc32 AgentMachine CobsCodecs ProtoRecv

/-- `parse_packet`; `none` is the `ValueError`. -/
def parsePacket (raw : List Byte) : Option Frame :=
  (pyDecode raw).bind fun decoded =>
    let payload := decoded.take (decoded.length-4)
    if decoded.length < 5 then none
    else if (crc32 0 payload).toNat ≠ readLe32 decoded (decoded.length-4) then none
    else some ⟨payload.headD 0,payload.drop 1⟩

def maxPacketSize : ℕ := 1100

/-- Where the byte loop over one read ends. -/
inductive Scanned where
  | packet (f : Frame) (rest : List Byte)
  | more (frame : List Byte)

/-- The byte loop both host receivers run over `data`, with the local `frame`. -/
def scan (frame : List Byte) : List Byte → Scanned
  | [] => .more frame
  | b::data =>
    if b = 0 then
      if frame = [] then scan frame data
      else match parsePacket frame with
        | some f => .packet f data
        | none => scan [] data
    else if maxPacketSize < (frame++[b]).length then scan [] data
    else scan (frame++[b]) data

/-- One round of the waiting loop: bytes read, or the deadline has passed. -/
inductive Event where
  | read (data : List Byte)
  | expire
  deriving DecidableEq, Repr

/-- The end of a call, with the bytes kept for the next one and the rounds to come. -/
inductive CallEnd where
  | blocked
  | timeout (kept : List Byte) (rest : List Event)
  | got (f : Frame) (kept : List Byte) (rest : List Event)

/-- The rounds in which the receiver reads. -/
def readLoop (frame : List Byte) : List Event → CallEnd
  | [] => .blocked
  | .expire::es => .timeout [] es
  | .read data::es => match scan frame data with
      | .packet f rest => .got f rest es
      | .more frame' => readLoop frame' es

/-- A call that first goes through the kept bytes. -/
def scanKept (kept : List Byte) (es : List Event) : CallEnd :=
  match scan [] kept with
  | .packet f rest => .got f rest es
  | .more frame => readLoop frame es

/-- `_recv_packet_sync`: the deadline is looked at before `portbuf`. -/
def syncCall (portbuf : List Byte) : List Event → CallEnd
  | .expire::es => .timeout portbuf es
  | es => scanKept portbuf es

/-- `recv_packet` without a port: `leftover` is drained before the first look at the clock. -/
def asyncCall (leftover : List Byte) (es : List Event) : CallEnd := scanKept leftover es

/-- The packets that successive calls return; timeouts are exceptions. -/
def received (call : List Byte → List Event → CallEnd) : ℕ → List Byte → List Event → List Frame
  | 0,_,_ => []
  | n+1,kept,es => match call kept es with
      | .blocked => []
      | .timeout kept' es' => received call n kept' es'
      | .got f kept' es' => f::received call n kept' es'

/-- Successive calls of `proto_recv` with these timeouts, without the results 0. -/
def agentCalls : List ℕ → List Input → List Frame
  | [],_ => []
  | ms::more,inputs =>
    ((protoRecv ms inputs).answer.filter (·.cmd ≠ 0)).toList++
      agentCalls more (protoRecv ms inputs).rest

/-! ## The packets of a stream -/

/-- The closed segments that parse, in order. -/
def packets (stream : List Byte) : List Frame :=
  ((stream.splitOn 0).dropLast).filterMap parsePacket

/-- Every segment, the open one at the end included, is within the limit. -/
def Short (stream : List Byte) : Prop := ∀ seg ∈ stream.splitOn 0, seg.length ≤ 1040

variable {xs : List Byte}

lemma splitOn_free (h : ∀ b ∈ xs, b ≠ 0) : xs.splitOn 0 = [xs] :=
  splitOnP_eq_singleton fun b hb => by simpa using h b hb

lemma splitOn_cut (h : ∀ b ∈ xs, b ≠ 0) (rest : List Byte) :
    (xs++0::rest).splitOn 0 = xs::rest.splitOn 0 := by
  rw [splitOn_append_cons_self,splitOn_free h]
  rfl

lemma packets_free (h : ∀ b ∈ xs, b ≠ 0) : packets xs = [] := by
  rw [packets,splitOn_free h]
  rfl

lemma packets_cut (h : ∀ b ∈ xs, b ≠ 0) (rest : List Byte) :
    packets (xs++0::rest) = (parsePacket xs).toList++packets rest := by
  rw [packets,splitOn_cut h,dropLast_cons_of_ne_nil (splitOn_ne_nil 0 rest),
    filterMap_cons]
  cases parsePacket xs <;> rfl

lemma packets_zero (rest : List Byte) : packets (0::rest) = packets rest :=
  packets_cut (fun _ hb => absurd hb not_mem_nil) rest

lemma Short.cut {xs rest : List Byte} (h : Short (xs++0::rest)) (hfree : ∀ b ∈ xs, b ≠ 0) :
    Short rest := by
  intro seg hseg
  apply h seg
  rw [splitOn_cut hfree]
  exact mem_cons_of_mem _ hseg

lemma Short.head {xs rest : List Byte} (h : Short (xs++rest)) (hfree : ∀ b ∈ xs, b ≠ 0) :
    xs.length ≤ 1040 := by
  by_cases hzero : (0 : Byte) ∈ rest
  · obtain ⟨ys,zs,rfl,hys⟩ := eq_append_cons_of_mem hzero
    have hsegment : ∀ b ∈ xs++ys, b ≠ 0 := by
      intro b hb
      rcases mem_append.mp hb with hb | hb
      · exact hfree b hb
      · exact fun h0 => hys (h0 ▸ hb)
    rw [← append_assoc] at h
    have hlen := h (xs++ys) (by rw [splitOn_cut hsegment]; exact mem_cons_self)
    rw [length_append] at hlen
    omega
  · have hsegment : ∀ b ∈ xs++rest, b ≠ 0 := by
      intro b hb
      rcases mem_append.mp hb with hb | hb
      · exact hfree b hb
      · exact fun h0 => hzero (h0 ▸ hb)
    have hlen := h (xs++rest) (by rw [splitOn_free hsegment]; exact mem_cons_self)
    rw [length_append] at hlen
    omega

/-! ## The host's receivers -/

def bytes (es : List Event) : List Byte :=
  es.flatMap fun e => match e with
    | .read data => data
    | .expire => []

/-- What has arrived ends outside a frame. -/
def AtBoundary (xs : List Byte) : Prop := xs = [] ∨ xs.getLast? = some 0

def Aligned (kept : List Byte) (es : List Event) : Prop :=
  ∀ p q, es = p++.expire::q → AtBoundary (kept++bytes p)

lemma AtBoundary.suffix {xs ys : List Byte} (h : AtBoundary (xs++ys)) : AtBoundary ys := by
  rcases eq_nil_or_concat ys with rfl | ⟨zs,b,rfl⟩
  · exact .inl rfl
  · rcases h with h | h
    · simp at h
    · right
      simpa [← append_assoc] using h

lemma AtBoundary.eq_nil (h : AtBoundary xs) (hfree : ∀ b ∈ xs, b ≠ 0) :
    xs = [] := by
  rcases h with h | h
  · exact h
  · exact absurd rfl (hfree 0 (mem_of_getLast? h))

/-- The byte loop over `seen` keeps the packets of the stream, `rest` being still to come. -/
def Scanned.Right (seen rest : List Byte) : Scanned → Prop
  | packet f r => packets (seen++rest) = f::packets (r++rest) ∧ Short (r++rest) ∧
      r <:+ seen ∧ r.length < seen.length
  | more frame => packets (seen++rest) = packets (frame++rest) ∧ Short (frame++rest) ∧
      frame <:+ seen ∧ ∀ b ∈ frame, b ≠ 0

lemma Scanned.Right.mono {seen seen' rest : List Byte} {r : Scanned} (h : r.Right seen rest)
    (hpackets : packets (seen'++rest) = packets (seen++rest)) (hsuffix : seen <:+ seen') :
    r.Right seen' rest := by
  cases r with
  | packet f kept =>
    obtain ⟨hp,hs,hk,hlt⟩ := h
    exact ⟨hpackets.trans hp,hs,hk.trans hsuffix,lt_of_lt_of_le hlt hsuffix.length_le⟩
  | more frame =>
    obtain ⟨hp,hs,hk,hfree⟩ := h
    exact ⟨hpackets.trans hp,hs,hk.trans hsuffix,hfree⟩

lemma scan_right (frame data rest : List Byte) (hfree : ∀ b ∈ frame, b ≠ 0)
    (hshort : Short (frame++(data++rest))) : (scan frame data).Right (frame++data) rest := by
  induction data generalizing frame with
  | nil => exact ⟨by rw [append_nil],hshort,by rw [append_nil],hfree⟩
  | cons b data ih =>
    have hsuffix : data <:+ frame++b::data := ⟨frame++[b],by simp⟩
    rw [scan]
    by_cases hb : b = 0
    · subst hb
      have hcut := packets_cut hfree (data++rest)
      have hdata : (scan [] data).Right data rest := ih [] (by simp) (hshort.cut hfree)
      rw [if_pos rfl]
      by_cases hempty : frame = []
      · subst hempty
        exact hdata.mono hcut hsuffix
      rw [if_neg hempty]
      cases hparse : parsePacket frame with
      | none =>
        rw [hparse] at hcut
        refine hdata.mono ?_ hsuffix
        rw [append_assoc]
        exact hcut
      | some f =>
        rw [hparse] at hcut
        refine ⟨?_,hshort.cut hfree,hsuffix,by simp; omega⟩
        rw [append_assoc]
        exact hcut
    · have hmove : frame++b::data = frame++[b]++data := by simp
      have hfree' : ∀ c ∈ frame++[b], c ≠ 0 := by
        intro c hc
        rcases mem_append.mp hc with hc | hc
        · exact hfree c hc
        · rwa [mem_singleton.mp hc]
      have hshort' : Short (frame++[b]++(data++rest)) := by simpa using hshort
      have hlen := hshort'.head hfree'
      rw [if_neg hb,if_neg (by simp only [maxPacketSize]; omega),hmove]
      exact ih _ hfree' hshort'

def left (kept : List Byte) (es : List Event) : ℕ := kept.length+(bytes es).length+es.length

/-- The end of a call with this stream before it. -/
def CallEnd.Right (kept : List Byte) (es : List Event) : CallEnd → Prop
  | blocked => packets (kept++bytes es) = []
  | timeout kept' es' => packets (kept++bytes es) = packets (kept'++bytes es') ∧
      Short (kept'++bytes es') ∧ Aligned kept' es' ∧
      left kept' es' < left kept es
  | got f kept' es' => packets (kept++bytes es) = f::packets (kept'++bytes es') ∧
      Short (kept'++bytes es') ∧ Aligned kept' es' ∧
      left kept' es' < left kept es

variable {kept kept' : List Byte}

lemma CallEnd.Right.mono {es es' : List Event} {r : CallEnd}
    (h : r.Right kept es) (hpackets : packets (kept'++bytes es') = packets (kept++bytes es))
    (hleft : left kept es ≤ left kept' es') : r.Right kept' es' := by
  cases r with
  | blocked => exact hpackets.trans h
  | timeout k l =>
    obtain ⟨hp,hs,ha,hlt⟩ := h
    exact ⟨hpackets.trans hp,hs,ha,lt_of_lt_of_le hlt hleft⟩
  | got f k l =>
    obtain ⟨hp,hs,ha,hlt⟩ := h
    exact ⟨hpackets.trans hp,hs,ha,lt_of_lt_of_le hlt hleft⟩

lemma Aligned.tail {e : Event} {es : List Event}
    (h : Aligned kept (e::es)) (hk : kept' <:+ kept++bytes [e]) : Aligned kept' es := by
  intro p q hes
  obtain ⟨before,hbefore⟩ := hk
  have hall := h (e::p) q (by rw [hes]; rfl)
  have hbytes : kept++bytes (e::p) = before++(kept'++bytes p) := by
    rw [← append_assoc,hbefore]
    simp [bytes]
  rw [hbytes] at hall
  exact hall.suffix

lemma Aligned.mono {es : List Event} (h : Aligned kept es)
    (hk : kept' <:+ kept) : Aligned kept' es := by
  intro p q hes
  obtain ⟨before,rfl⟩ := hk
  have hall := h p q hes
  rw [append_assoc] at hall
  exact hall.suffix

lemma readLoop_right (frame : List Byte) (es : List Event) (hfree : ∀ b ∈ frame, b ≠ 0)
    (hshort : Short (frame++bytes es)) (halign : Aligned frame es) :
    (readLoop frame es).Right frame es := by
  induction es generalizing frame with
  | nil =>
    show packets (frame++bytes []) = []
    rw [show bytes [] = [] from rfl,append_nil]
    exact packets_free hfree
  | cons e es ih =>
    cases e with
    | expire =>
      have hframe : frame = [] := by
        have hhere := halign [] es rfl
        rw [show bytes [] = [] from rfl,append_nil] at hhere
        exact hhere.eq_nil hfree
      subst hframe
      exact ⟨rfl,hshort,halign.tail (by simp [bytes]),by simp [left,bytes]⟩
    | read data =>
      have hbytes : bytes (.read data::es) = data++bytes es := by simp [bytes]
      have hone : bytes [.read data] = data := by simp [bytes]
      rw [hbytes] at hshort
      have hscan := scan_right frame data (bytes es) hfree hshort
      unfold readLoop
      cases hend : scan frame data with
      | packet f kept =>
        rw [hend] at hscan
        obtain ⟨hp,hs,hk,hlt⟩ := hscan
        rw [append_assoc,← hbytes] at hp
        refine ⟨hp,hs,halign.tail (by rwa [hone]),?_⟩
        rw [length_append] at hlt
        simp only [left,hbytes,length_append,length_cons]
        omega
      | more frame' =>
        rw [hend] at hscan
        obtain ⟨hp,hs,hk,hfree'⟩ := hscan
        rw [append_assoc,← hbytes] at hp
        refine (ih frame' hfree' hs (halign.tail (by rwa [hone]))).mono hp ?_
        have hlen := hk.length_le
        rw [length_append] at hlen
        simp only [left,hbytes,length_append,length_cons]
        omega

lemma scanKept_right (kept : List Byte) (es : List Event) (hshort : Short (kept++bytes es))
    (halign : Aligned kept es) : (scanKept kept es).Right kept es := by
  have hscan : (scan [] kept).Right kept (bytes es) :=
    scan_right [] kept (bytes es) (by simp) hshort
  unfold scanKept
  cases hend : scan [] kept with
  | packet f r =>
    rw [hend] at hscan
    obtain ⟨hp,hs,hk,hlt⟩ := hscan
    refine ⟨hp,hs,halign.mono hk,?_⟩
    simp only [left]
    omega
  | more frame =>
    rw [hend] at hscan
    obtain ⟨hp,hs,hk,hfree⟩ := hscan
    refine (readLoop_right frame es hfree hs (halign.mono hk)).mono hp ?_
    have hlen := hk.length_le
    simp only [left]
    omega

lemma syncCall_right (kept : List Byte) (es : List Event) (hshort : Short (kept++bytes es))
    (halign : Aligned kept es) : (syncCall kept es).Right kept es := by
  unfold syncCall
  split
  · -- the clock is looked at first: the kept bytes stay for the next call
    exact ⟨rfl,hshort,halign.tail (by simp [bytes]),by simp [left,bytes]⟩
  · exact scanKept_right kept es hshort halign

lemma received_eq {call : List Byte → List Event → CallEnd}
    (hcall : ∀ kept es, Short (kept++bytes es) → Aligned kept es → (call kept es).Right kept es)
    (n : ℕ) (kept : List Byte) (es : List Event) (hshort : Short (kept++bytes es))
    (halign : Aligned kept es) (hn : left kept es < n) :
    received call n kept es = packets (kept++bytes es) := by
  induction n generalizing kept es with
  | zero => omega
  | succ n ih =>
    have hright := hcall kept es hshort halign
    unfold received
    cases hend : call kept es with
    | blocked =>
      rw [hend] at hright
      exact hright.symm
    | timeout kept' es' =>
      rw [hend] at hright
      obtain ⟨hp,hs,ha,hlt⟩ := hright
      rw [hp]
      exact ih kept' es' hs ha (by omega)
    | got f kept' es' =>
      rw [hend] at hright
      obtain ⟨hp,hs,ha,hlt⟩ := hright
      rw [hp]
      exact congrArg (f::·) (ih kept' es' hs ha (by omega))

/-! ## The agent's receiver -/

lemma parsePacket_eq_finish (raw : List Byte) : parsePacket raw = (finish raw).2 := by
  rw [parsePacket,pyDecode_eq,finish]
  cases hend : (Cobs.decode raw).2 with
  | false => rfl
  | true =>
    simp only [if_true,Option.bind_some]
    by_cases hlen : (Cobs.decode raw).1.length < 5
    · rw [if_pos hlen,if_pos hlen]
    rw [if_neg hlen,if_neg hlen]
    split_ifs with hcrc
    · rfl
    · have hne : (Cobs.decode raw).1 ≠ [] := length_pos_iff.mp (by omega)
      obtain ⟨c,cs,hcs⟩ := exists_cons_of_ne_nil hne
      rw [hcs,length_cons] at hlen ⊢
      obtain ⟨k,hk⟩ : ∃ k, cs.length+1-4 = k+1 := ⟨cs.length-4,by omega⟩
      rw [hk]
      rfl

/-- Bytes of the line, idle polls left out. -/
def heard (inputs : List Input) : List Byte := inputs.filterMap Input.byte?

lemma heard_append (p q : List Input) : heard (p++q) = heard p++heard q :=
  filterMap_append

lemma heard_of_waits {limit : ℕ} {p : List Input} (h : Waits limit p)
    (herr : Input.lineError ∉ p) : ∃ k, heard p = List.replicate k 0++pending p := by
  induction p using List.reverseRecOn with
  | nil => exact ⟨0,rfl⟩
  | append_singleton p x ih =>
    obtain ⟨hp,-,-,hcut⟩ := (waits_snoc limit p x).mp h
    obtain ⟨k,hk⟩ := ih hp (fun hmem => herr (mem_append_left _ hmem))
    rw [heard_append,hk]
    cases x with
    | byte b =>
      by_cases hb : b = 0
      · subst hb
        refine ⟨k+1,?_⟩
        rw [hcut rfl,pending_cut p rfl,replicate_succ']
        simp [heard,Input.byte?]
      · refine ⟨k,?_⟩
        rw [pending_byte p hb]
        simp [heard,Input.byte?]
    | lineError => simp at herr
    | silence =>
      refine ⟨k,?_⟩
      rw [pending_snoc]
      simp [heard,Input.byte?,Input.cuts]

lemma packets_zeros (k : ℕ) (rest : List Byte) :
    packets (List.replicate k 0++rest) = packets rest := by
  induction k with
  | zero => rfl
  | succ k ih => rw [replicate_succ,cons_append,packets_zero,ih]

lemma Short.zeros {k : ℕ} {rest : List Byte} (h : Short (List.replicate k 0++rest)) :
    Short rest := by
  induction k with
  | zero => exact h
  | succ k ih =>
    rw [replicate_succ,cons_append] at h
    exact ih (h.cut fun _ hb => absurd hb not_mem_nil)

/-- A call that times out does so between two frames. -/
def Patience (ms : ℕ) (inputs : List Input) : Prop :=
  ∀ p rest, inputs = p++.silence::rest →
    (collect (pollLimit ms) (pollLimit ms) [] inputs).1 = .timeout rest → pending p = []

def Patient : List ℕ → List Input → Prop
  | [],_ => True
  | ms::more,inputs => Patience ms inputs ∧ Patient more (protoRecv ms inputs).rest

lemma protoRecv_packets {ms : ℕ} {inputs : List Input} (hshort : Short (heard inputs))
    (herr : Input.lineError ∉ inputs) (hpatient : Patience ms inputs) :
    let r := protoRecv ms inputs
    packets (heard inputs) = r.answer.toList++packets (heard r.rest) ∧ Short (heard r.rest) ∧
      Input.lineError ∉ r.rest ∧ (r.rest = [] ∨ r.rest.length < inputs.length) := by
  have hstart : collect (pollLimit ms) (pollLimit ms-pause []) (pending []) inputs =
      collect (pollLimit ms) (pollLimit ms) [] inputs := rfl
  have hsmall : Buffer.size .rxCobs = 1056 := rfl
  rcases collect_ends (waits_nil (pollLimit ms)) inputs with
    ⟨q,rest,hin,hq,hne,heq⟩ | ⟨q,b,rest,hin,hq,hb,hlen,-⟩ | ⟨q,rest,hin,hq,-,heq⟩ | ⟨hq,heq⟩
  all_goals
    simp only [nil_append,hstart] at *
  · -- a delimiter closes the segment
    have hquiet : Input.lineError ∉ q := fun h => herr (by rw [hin]; exact mem_append_left _ h)
    obtain ⟨k,hk⟩ := heard_of_waits hq hquiet
    have hheard : heard inputs = List.replicate k 0++(pending q++0::heard rest) := by
      rw [hin,heard_append,hk,append_assoc]
      rfl
    have hcut := packets_cut (pending_nonzero q) (heard rest)
    rw [hheard] at hshort ⊢
    rw [packets_zeros,hcut,parsePacket_eq_finish,protoRecv,heq]
    refine ⟨rfl,hshort.zeros.cut (pending_nonzero q),?_,.inr ?_⟩
    · exact fun hmem => herr (by rw [hin]; exact mem_append_right _ (mem_cons_of_mem _ hmem))
    · rw [hin,length_append,length_cons]
      dsimp only
      omega
  · -- a short segment does not fill the buffer
    have hquiet : Input.lineError ∉ q := fun h => herr (by rw [hin]; exact mem_append_left _ h)
    obtain ⟨k,hk⟩ := heard_of_waits hq hquiet
    have hheard : heard inputs = List.replicate k 0++((pending q++[b])++heard rest) := by
      rw [hin,heard_append,hk]
      simp [heard,Input.byte?]
    rw [hheard] at hshort
    have hfit := hshort.zeros.head (by rw [← pending_byte q hb]; exact pending_nonzero _)
    omega
  · -- the timeout falls between two frames
    have hquiet : Input.lineError ∉ q := fun h => herr (by rw [hin]; exact mem_append_left _ h)
    obtain ⟨k,hk⟩ := heard_of_waits hq hquiet
    have hheard : heard inputs = List.replicate k 0++heard rest := by
      rw [hin,heard_append,hk,hpatient q rest hin heq,append_nil]
      rfl
    rw [hheard] at hshort ⊢
    rw [packets_zeros,protoRecv,heq]
    refine ⟨rfl,hshort.zeros,?_,.inr ?_⟩
    · exact fun hmem => herr (by rw [hin]; exact mem_append_right _ (mem_cons_of_mem _ hmem))
    · rw [hin,length_append,length_cons]
      dsimp only
      omega
  · obtain ⟨k,hk⟩ := heard_of_waits hq herr
    rw [hk,packets_zeros,packets_free (pending_nonzero inputs),protoRecv,heq]
    exact ⟨rfl,fun seg hseg => by simp [heard] at hseg; simp [hseg],by simp,.inl rfl⟩

lemma agentCalls_eq (ts : List ℕ) (inputs : List Input) (hshort : Short (heard inputs))
    (herr : Input.lineError ∉ inputs) (hts : inputs.length ≤ ts.length)
    (hpatient : Patient ts inputs) :
    agentCalls ts inputs = (packets (heard inputs)).filter (·.cmd ≠ 0) := by
  induction ts generalizing inputs with
  | nil =>
    obtain rfl : inputs = [] := eq_nil_of_length_eq_zero (Nat.le_zero.mp hts)
    rfl
  | cons ms ts ih =>
    obtain ⟨hp,hs,he,hlt⟩ := protoRecv_packets hshort herr hpatient.1
    rw [length_cons] at hts
    have hmore : (protoRecv ms inputs).rest.length ≤ ts.length := by
      rcases hlt with hnil | hlt
      · rw [hnil]
        exact Nat.zero_le _
      · omega
    rw [agentCalls,ih _ hs he hmore hpatient.2,hp,filter_append]
    congr 1
    cases (protoRecv ms inputs).answer with
    | none => rfl
    | some f =>
      rw [Option.filter,Option.toList_some,filter_cons]
      cases decide (f.cmd ≠ 0) <;> rfl

lemma protoRecv_rest (ms : ℕ) (inputs : List Input) : (protoRecv ms inputs).rest <:+ inputs := by
  have hstart : collect (pollLimit ms) (pollLimit ms-pause []) (pending []) inputs =
      collect (pollLimit ms) (pollLimit ms) [] inputs := rfl
  have hends := collect_ends (waits_nil (pollLimit ms)) inputs
  rw [hstart] at hends
  rw [protoRecv]
  rcases hends with ⟨q,rest,hin,-,-,heq⟩ | ⟨q,b,rest,hin,-,-,-,heq⟩ | ⟨q,rest,hin,-,-,heq⟩ | ⟨-,heq⟩
  · rw [heq,hin]
    exact (suffix_cons _ _).trans (suffix_append _ _)
  · rw [heq,hin]
    exact (suffix_cons _ _).trans (suffix_append _ _)
  · rw [heq,hin]
    exact (suffix_cons _ _).trans (suffix_append _ _)
  · rw [heq]
    exact nil_suffix

lemma patient_of_busy (ts : List ℕ) {inputs : List Input} (h : Input.silence ∉ inputs) :
    Patient ts inputs := by
  induction ts generalizing inputs with
  | nil => trivial
  | cons ms ts ih =>
    refine ⟨?_,ih fun hmem => h ((protoRecv_rest ms inputs).mem hmem)⟩
    intro p rest hin
    exact absurd (by rw [hin]; simp) h

/-- The three receivers on one stream, each with its own reads and timeouts. -/
theorem receivers_agree {stream : List Byte} (hshort : Short stream) {es es' : List Event}
    (hes : bytes es = stream) (hes' : bytes es' = stream) (halign : Aligned [] es)
    (halign' : Aligned [] es') {inputs : List Input} (hin : heard inputs = stream)
    (herr : Input.lineError ∉ inputs) {ts : List ℕ} (hts : inputs.length ≤ ts.length)
    (hpatient : Patient ts inputs) {n : ℕ} (hn : left [] es < n) {n' : ℕ} (hn' : left [] es' < n') :
    received syncCall n [] es = packets stream ∧ received asyncCall n' [] es' = packets stream ∧
      agentCalls ts inputs = (packets stream).filter (·.cmd ≠ 0) := by
  subst hin
  refine ⟨?_,?_,agentCalls_eq ts inputs hshort herr hts hpatient⟩
  · rw [← hes] at hshort ⊢
    exact received_eq syncCall_right n [] es hshort halign hn
  · rw [← hes'] at hshort ⊢
    exact received_eq scanKept_right n' [] es' hshort halign' hn'

def infoRequest : List Byte := [0x06,0x01,0x1B,0xDF,0x05,0xA5,0x00]

theorem infoRequest_received :
    received syncCall 12 [] [.read [0x06,0x01,0x1B],.read [0xDF,0x05,0xA5,0x00]] =
      packets infoRequest ∧
      received asyncCall 12 [] [.read infoRequest] = packets infoRequest ∧
      agentCalls (List.replicate 7 500) (infoRequest.map .byte) =
        (packets infoRequest).filter (·.cmd ≠ 0) := by
  refine receivers_agree ?_ ?_ ?_ ?_ ?_ ?_ ?_ ?_ ?_ ?_ ?_
  · unfold Short
    decide
  · rfl
  · rfl
  · intro p q h
    exact absurd (by rw [h]; simp) (by decide : Event.expire ∉ [.read [0x06,0x01,0x1B],
      .read [0xDF,0x05,0xA5,0x00]])
  · intro p q h
    exact absurd (by rw [h]; simp) (by decide : Event.expire ∉ [.read infoRequest])
  · rfl
  · decide
  · decide
  · exact patient_of_busy _ (by decide)
  · decide
  · decide

/-- A packet with command 0: both host receivers return it, the agent does not. -/
theorem command_zero_unseen :
    received syncCall 9 [] [.read [0x01,0x05,0x8D,0xEF,0x02,0xD2,0x00]] = [⟨0,[]⟩] ∧
      received asyncCall 9 [] [.read [0x01,0x05,0x8D,0xEF,0x02,0xD2,0x00]] = [⟨0,[]⟩] ∧
      agentCalls (List.replicate 7 500)
        (([0x01,0x05,0x8D,0xEF,0x02,0xD2,0x00] : List Byte).map .byte) =
        [] := by
  decide +kernel

end Defib.Receivers
