import Defib.TftpServer

/-!
# One client, nothing lost

A client of RFC 1350 with the block size option requests a file and acknowledges
every block. It takes a block of the number it waits for modulo 2^16 and is done
after a block shorter than the block size. The server counts blocks without bound
and packs the count into sixteen bits, so the file arrives exactly when the last
block has a number that fits.
-/
namespace Defib.TftpDelivery
open List Words TftpServer

structure Client where
  blocksize : ℕ
  expected : ℕ
  blocks : List (List Byte)
  finished : Bool
  deriving DecidableEq, Repr

def Client.start : Client := ⟨defaultBlocksize,1,[],false⟩

def ackPacket (n : ℕ) : List Byte := packBe16 4++packBe16 n

/-- What the client makes of a packet and what it answers. -/
def Client.take (cl : Client) : Packet → Client × Option (List Byte)
  | .oack n => ({cl with blocksize := n},some (ackPacket 0))
  | .data n payload =>
    if n%65536 = cl.expected%65536 then
      ({cl with
        expected := cl.expected+1
        blocks := cl.blocks++[payload]
        finished := decide (payload.length < cl.blocksize)},some (ackPacket n))
    else (cl,none)
  | .error _ _ => (cl,none)

variable {A : Type} [DecidableEq A]

/-- The datagram `d` goes to the server, its answer to the client, and so on; `none` when
the server raises. -/
def exchange (c : Config) (addr : A) : ℕ → Server A → Client → List Byte →
    Option (Server A × Client)
  | 0,s,cl,_ => some (s,cl)
  | fuel+1,s,cl,d =>
    match s.datagramReceived c addr d with
    | none => none
    | some (s',[]) => some (s',cl)
    | some (s',p::_) =>
      match (cl.take p.packet).2 with
      | none => some (s',(cl.take p.packet).1)
      | some d' => exchange c addr fuel s' (cl.take p.packet).1 d'

/-- The client ends up with the file in full blocks and one short one, and the server has
counted the transfer. -/
def Delivers (c : Config) (s : Server A) (addr : A) (rrq file : List Byte) (bs : ℕ) : Prop :=
  ∃ fuel s' cl,exchange c addr fuel s .start rrq = some (s',cl) ∧ cl.finished = true ∧
    cl.blocks.flatten = file ∧
    (∃ full last,cl.blocks = full++[last] ∧ (∀ b ∈ full,b.length = bs) ∧ last.length < bs) ∧
    s'.transfersComplete = s.transfersComplete+1 ∧ addr ∉ s'.transfers

/-! ### The blocks of a file -/

lemma chunks_flatten (file : List Byte) (bs k : ℕ) :
    ((List.range k).map (chunk file bs)).flatten = file.take (k*bs) := by
  induction k with
  | zero => simp
  | succ k ih =>
    rw [range_succ,map_append,flatten_append,ih]
    simp only [map_cons,map_nil,flatten_cons,flatten_nil,append_nil,chunk]
    rw [Nat.succ_mul,take_add]

/-! ### Acknowledgements -/

lemma unpackBe16_packBe16 {n : ℕ} (hn : n < 65536) (xs : List Byte) :
    Server.unpackBe16 (packBe16 n++xs) 0 = n := by
  simp only [Server.unpackBe16,packBe16,cons_append,nil_append,getD_cons_zero,
    getD_cons_succ,BitVec.toNat_ofNat]
  omega

lemma ackPacket_length (n : ℕ) : (ackPacket n).length = 4 := rfl

lemma datagramReceived_ack (c : Config) (s : Server A) (addr : A) (n : ℕ) :
    s.datagramReceived c addr (ackPacket n) = s.handleAck c addr (ackPacket n) := by
  have hop : Server.unpackBe16 (ackPacket n) 0 = 4 := unpackBe16_packBe16 (by decide) _
  simp [Server.datagramReceived,ackPacket_length,hop]

lemma ackPacket_number {n : ℕ} (hn : n < 65536) : Server.unpackBe16 (ackPacket n) 2 = n := by
  have h := unpackBe16_packBe16 hn []
  simpa [Server.unpackBe16,ackPacket,packBe16] using h

/-! ### One exchange -/

section
variable {c : Config} {addr : A} {file : List Byte} {bs : ℕ}

/-- The transfer with `n` blocks sent. -/
structure Serves (s : Server A) (addr : A) (file : List Byte) (bs n : ℕ)
    (t : Transfer A) : Prop where
  live : s.transfers.lookup addr = some t
  addr_eq : t.addr = addr
  data_eq : t.data = file
  blocksize_eq : t.blocksize = bs
  blockNum_eq : t.blockNum = n

/-- Block `i` is on its way and those before it are acknowledged. -/
def Sending (s : Server A) (addr : A) (file : List Byte) (bs i : ℕ) : Prop :=
  ∃ t,Serves s addr file bs (i+1) t ∧ t.complete = decide ((chunk file bs i).length < bs)

/-- The client has blocks `0` to `i`. -/
structure Holds (cl : Client) (file : List Byte) (bs i : ℕ) : Prop where
  blocksize_eq : cl.blocksize = bs
  expected_eq : cl.expected = i+2
  blocks_eq : cl.blocks = (List.range (i+1)).map (chunk file bs)
  finished_eq : cl.finished = decide ((chunk file bs i).length < bs)

variable {s : Server A} {i : ℕ}

lemma sendDataBlock_sends {t : Transfer A} (haddr : t.addr = addr)
    (hdata : t.data = file) (hbs : t.blocksize = bs) (hnum : t.blockNum = i)
    (hcomplete : t.complete = false) (hi : i+1 < 65536) :
    ∃ s' p,s.sendDataBlock t = some (s',[p]) ∧ p.packet = .data (i+1) (chunk file bs i) ∧
      Sending s' addr file bs i ∧ s'.transfersComplete = s.transfersComplete := by
  subst haddr hdata hbs hnum
  have hblock : Server.block t (t.blockNum+1) = chunk t.data t.blocksize t.blockNum := rfl
  rw [Server.sendDataBlock,if_pos hi]
  refine ⟨_,_,rfl,rfl,⟨_,⟨AList.lookup_insert _,rfl,rfl,rfl,rfl⟩,?_⟩,rfl⟩
  simp only [hcomplete,Bool.false_or,hblock,Server.armTimer]

lemma handleAck_done (hs : Sending s addr file bs i) (hi : i+1 < 65536)
    (hshort : (chunk file bs i).length < bs) : ∃ s',
      s.handleAck c addr (ackPacket (i+1)) = some (s',[]) ∧
      s'.transfersComplete = s.transfersComplete+1 ∧ addr ∉ s'.transfers := by
  obtain ⟨t,ht,hcomplete⟩ := hs
  have hc : t.complete = true := by rw [hcomplete]; exact decide_eq_true hshort
  simp only [Server.handleAck,ackPacket_length,ackPacket_number hi,ht.live,ht.blockNum_eq,hc,
    Nat.lt_irrefl,if_false,if_true,Nat.succ_ne_zero,false_and]
  refine ⟨_,rfl,rfl,?_⟩
  simp only [Server.finish,Server.cancelTimer,ht.addr_eq]
  exact fun h => (AList.mem_erase.mp h).1 rfl

lemma handleAck_next (hs : Sending s addr file bs i) (hi : i+2 < 65536)
    (hfull : ¬(chunk file bs i).length < bs) : ∃ s' p,
      s.handleAck c addr (ackPacket (i+1)) = some (s',[p]) ∧
      p.packet = .data (i+2) (chunk file bs (i+1)) ∧ Sending s' addr file bs (i+1) ∧
      s'.transfersComplete = s.transfersComplete := by
  obtain ⟨t,ht,hcomplete⟩ := hs
  have hc : t.complete = false := by rw [hcomplete]; exact decide_eq_false hfull
  simp only [Server.handleAck,ackPacket_length,ackPacket_number (show i+1 < 65536 by omega),
    ht.live,ht.blockNum_eq,hc,Nat.lt_irrefl,if_false,if_true,Nat.succ_ne_zero,false_and,
    Bool.false_eq_true]
  exact sendDataBlock_sends ht.addr_eq ht.data_eq ht.blocksize_eq rfl rfl hi

lemma handleAck_raises (hs : Sending s addr file bs i) (hi : i+2 = 65536)
    (hfull : ¬(chunk file bs i).length < bs) :
    s.handleAck c addr (ackPacket (i+1)) = none := by
  obtain ⟨t,ht,hcomplete⟩ := hs
  have hc : t.complete = false := by rw [hcomplete]; exact decide_eq_false hfull
  simp only [Server.handleAck,ackPacket_length,ackPacket_number (show i+1 < 65536 by omega),
    ht.live,ht.blockNum_eq,hc,Nat.lt_irrefl,if_false,if_true,Nat.succ_ne_zero,false_and,
    Bool.false_eq_true]
  rw [Server.sendDataBlock,if_neg (by show ¬i+1+1 < 65536; omega)]

lemma take_block {cl : Client} (h : Holds cl file bs i) :
    ∃ cl',cl.take (.data (i+2) (chunk file bs (i+1))) = (cl',some (ackPacket (i+2))) ∧
      Holds cl' file bs (i+1) := by
  simp only [Client.take,h.expected_eq,if_true]
  refine ⟨_,rfl,h.blocksize_eq,rfl,?_,?_⟩
  · rw [h.blocks_eq,range_succ (n := i+1),map_append]
    rfl
  · rw [h.blocksize_eq]

/-! ### The rest of a transfer -/

lemma exchange_reply {fuel : ℕ} {s s' : Server A} {cl cl' : Client} {d d' : List Byte} {p : Sent A}
    (hs : s.datagramReceived c addr d = some (s',[p]))
    (hcl : cl.take p.packet = (cl',some d')) :
    exchange c addr (fuel+1) s cl d = exchange c addr fuel s' cl' d' := by
  simp only [exchange,hs,hcl]

lemma exchange_delivers (hbs : 0 < bs) (hlast : file.length/bs+1 < 65536) (k : ℕ) :
    ∀ (i : ℕ) (s : Server A) (cl : Client),i+k = file.length/bs → Sending s addr file bs i →
      Holds cl file bs i → ∃ fuel s' cl',
        exchange c addr fuel s cl (ackPacket (i+1)) = some (s',cl') ∧
        Holds cl' file bs (file.length/bs) ∧
        s'.transfersComplete = s.transfersComplete+1 ∧ addr ∉ s'.transfers := by
  induction k with
  | zero =>
    intro i s cl hi hs hcl
    have hshort : (chunk file bs i).length < bs := (chunk_short_iff hbs).mpr (by omega)
    obtain ⟨s',hack,hdone,hgone⟩ := handleAck_done (c := c) hs (by omega) hshort
    refine ⟨1,s',cl,?_,?_,hdone,hgone⟩
    · simp only [exchange,datagramReceived_ack,hack]
    · rw [← hi]
      exact hcl
  | succ k ih =>
    intro i s cl hi hs hcl
    have hfull : ¬(chunk file bs i).length < bs := fun h => by
      have := (chunk_short_iff hbs).mp h
      omega
    obtain ⟨s',p,hack,hp,hs',hcount⟩ := handleAck_next (c := c) hs (by omega) hfull
    obtain ⟨cl',htake,hcl'⟩ := take_block hcl
    obtain ⟨fuel,s'',cl'',hrun,hholds,hdone,hgone⟩ := ih (i+1) s' cl' (by omega) hs' hcl'
    refine ⟨fuel+1,s'',cl'',?_,hholds,by rw [hdone,hcount],hgone⟩
    rw [← hrun]
    exact exchange_reply (by rw [datagramReceived_ack,hack]) (by rw [hp]; exact htake)

lemma exchange_unfinished (hbs : 0 < bs) (hlast : 65536 ≤ file.length/bs+1) (fuel : ℕ) :
    ∀ (i : ℕ) (s : Server A) (cl : Client),i+1 < 65536 → Sending s addr file bs i →
      Holds cl file bs i → ∀ r ∈ exchange c addr fuel s cl (ackPacket (i+1)),
        r.2.finished = false := by
  induction fuel with
  | zero =>
    intro i s cl hi hs hcl r hr
    simp only [exchange,Option.mem_def,Option.some.injEq] at hr
    subst hr
    rw [hcl.finished_eq]
    exact decide_eq_false fun h => by
      have := (chunk_short_iff hbs).mp h
      omega
  | succ fuel ih =>
    intro i s cl hi hs hcl r hr
    have hfull : ¬(chunk file bs i).length < bs := fun h => by
      have := (chunk_short_iff hbs).mp h
      omega
    by_cases hnext : i+2 = 65536
    · simp only [exchange,datagramReceived_ack,handleAck_raises hs hnext hfull] at hr
      cases hr
    · obtain ⟨s',p,hack,hp,hs',_⟩ := handleAck_next (c := c) hs (by omega) hfull
      obtain ⟨cl',htake,hcl'⟩ := take_block hcl
      rw [exchange_reply (by rw [datagramReceived_ack,hack]) (by rw [hp]; exact htake)] at hr
      exact ih (i+1) s' cl' (by omega) hs' hcl' r hr

/-! ### The request -/

lemma take_first (file : List Byte) (cl : Client) (hcl : cl = {Client.start with blocksize := bs}) :
    ∃ cl',cl.take (.data 1 (chunk file bs 0)) = (cl',some (ackPacket 1)) ∧ Holds cl' file bs 0 := by
  subst hcl
  exact ⟨_,rfl,rfl,rfl,rfl,rfl⟩

lemma exchange_start {rrq : List Byte} {r : Rrq} (hroom : s.HasRoom addr)
    (hop : 2 ≤ rrq.length ∧ Server.unpackBe16 rrq 0 = 1) (hrrq : parseRrq rrq = some r)
    (hfile : c.resolveFile r.filename = some file) : ∃ s' cl' k,
      (∀ fuel,exchange c addr (fuel+k) s .start rrq = exchange c addr fuel s' cl' (ackPacket 1)) ∧
      (∀ fuel < k,∀ q ∈ exchange c addr fuel s .start rrq,q.2.finished = false) ∧
      Sending s' addr file (c.blocksize r) 0 ∧ Holds cl' file (c.blocksize r) 0 ∧
      s'.transfersComplete = s.transfersComplete := by
  have hnoroom : ¬(addr ∉ s.transfers ∧ maxTransfers ≤ s.transfers.entries.length) := by
    rintro ⟨h1,h2⟩
    rcases hroom with h | h
    · exact h1 h
    · omega
  have hzero : ∀ q ∈ exchange c addr 0 s .start rrq,q.2.finished = false := by
    rintro q ⟨⟩
    rfl
  generalize hbase : ({((s.transfers.lookup addr).elim {s with requests := s.requests+1}
    (Server.cancelTimer {s with requests := s.requests+1})) with nextId := s.nextId+1} :
      Server A) = base
  have hcount : base.transfersComplete = s.transfersComplete := by
    rw [← hbase]
    cases s.transfers.lookup addr <;> rfl
  have hreq : s.datagramReceived c addr rrq =
      if r.blksize.isSome then some (base.sendTracked (Server.newTransfer c s addr r file)
        (.oack (c.blocksize r))) else base.sendDataBlock (Server.newTransfer c s addr r file) := by
    simp only [Server.datagramReceived,if_neg (show ¬rrq.length < 2 by omega),hop.2,if_true,
      Server.handleRrq,hrrq,if_neg hnoroom,hfile,hbase]
    rfl
  cases hblk : r.blksize with
  | none =>
    have hbs : c.blocksize r = defaultBlocksize := by simp only [Config.blocksize,hblk]
    rw [hblk] at hreq
    obtain ⟨s',p,hsend,hp,hs',hc'⟩ := sendDataBlock_sends (s := base)
      (t := Server.newTransfer c s addr r file) (i := 0) rfl rfl rfl rfl rfl (by decide)
    obtain ⟨cl',htake,hcl'⟩ := take_first file .start
      (show Client.start = {Client.start with blocksize := c.blocksize r} by rw [hbs]; rfl)
    refine ⟨s',cl',1,fun fuel => ?_,fun fuel hf => ?_,hs',hcl',hc'.trans hcount⟩
    · exact exchange_reply (hreq.trans hsend) (by rw [hp]; exact htake)
    · rw [Nat.lt_one_iff.mp hf]
      exact hzero
  | some n =>
    rw [hblk] at hreq
    obtain ⟨s',p,hsend,hp,hs',hc'⟩ := sendDataBlock_sends
      (s := (base.sendTracked (Server.newTransfer c s addr r file) (.oack (c.blocksize r))).1)
      (t := {((base.armTimer {Server.newTransfer c s addr r file with
        lastPacket := some (.oack (c.blocksize r))}).2) with retries := 0})
      (i := 0) rfl rfl rfl rfl rfl (by decide)
    have hack : (base.sendTracked (Server.newTransfer c s addr r file)
        (.oack (c.blocksize r))).1.datagramReceived c addr (ackPacket 0) = some (s',[p]) := by
      rw [datagramReceived_ack,← hsend]
      simp only [Server.handleAck,ackPacket_length,ackPacket_number (show 0 < 65536 by decide),
        Nat.lt_irrefl,if_false]
      rw [show (base.sendTracked (Server.newTransfer c s addr r file)
        (.oack (c.blocksize r))).1.transfers.lookup addr =
          some (base.armTimer {Server.newTransfer c s addr r file with
            lastPacket := some (.oack (c.blocksize r))}).2 from AList.lookup_insert _]
      rfl
    obtain ⟨cl',htake,hcl'⟩ := take_first file
      {Client.start with blocksize := c.blocksize r} rfl
    have hoack : ∀ fuel,exchange c addr (fuel+1) s .start rrq = exchange c addr fuel
        (base.sendTracked (Server.newTransfer c s addr r file) (.oack (c.blocksize r))).1
        {Client.start with blocksize := c.blocksize r} (ackPacket 0) :=
      fun fuel => exchange_reply hreq rfl
    refine ⟨s',cl',2,fun fuel => ?_,fun fuel hf => ?_,hs',hcl',hc'.trans hcount⟩
    · rw [hoack (fuel+1)]
      exact exchange_reply hack (by rw [hp]; exact htake)
    · rcases Nat.lt_succ_iff_lt_or_eq.mp hf with h | rfl
      · rw [Nat.lt_one_iff.mp h]
        exact hzero
      · rw [hoack 0]
        rintro q ⟨⟩
        rfl

lemma delivers_of_fits {rrq : List Byte} {r : Rrq} (hroom : s.HasRoom addr)
    (hop : 2 ≤ rrq.length ∧ Server.unpackBe16 rrq 0 = 1) (hrrq : parseRrq rrq = some r)
    (hfile : c.resolveFile r.filename = some file)
    (hfits : file.length/c.blocksize r+1 < 65536) :
    Delivers c s addr rrq file (c.blocksize r) := by
  have hbs := blocksize_pos c r
  obtain ⟨s₁,cl₁,k,hstart,_,hs₁,hcl₁,hcount⟩ := exchange_start hroom hop hrrq hfile
  obtain ⟨fuel,s₂,cl₂,hrun,hholds,hdone,hgone⟩ := exchange_delivers (c := c) hbs hfits
    (file.length/c.blocksize r) 0 s₁ cl₁ (Nat.zero_add _) hs₁ hcl₁
  refine ⟨fuel+k,s₂,cl₂,(hstart fuel).trans hrun,?_,?_,?_,by rw [hdone,hcount],hgone⟩
  · rw [hholds.finished_eq]
    exact decide_eq_true ((chunk_short_iff hbs).mpr le_rfl)
  · rw [hholds.blocks_eq,chunks_flatten]
    exact take_of_length_le (Nat.le_of_lt (Nat.lt_mul_of_div_lt (Nat.lt_succ_self _) hbs))
  · refine ⟨(List.range (file.length/c.blocksize r)).map (chunk file (c.blocksize r)),
      chunk file (c.blocksize r) (file.length/c.blocksize r),?_,?_,(chunk_short_iff hbs).mpr le_rfl⟩
    · rw [hholds.blocks_eq,range_succ,map_append]
      rfl
    · intro b hb
      obtain ⟨i,hi,rfl⟩ := mem_map.mp hb
      have hfull : ¬(chunk file (c.blocksize r) i).length < c.blocksize r := fun h =>
        absurd ((chunk_short_iff hbs).mp h) (Nat.not_le.mpr (mem_range.mp hi))
      have hle : (chunk file (c.blocksize r) i).length ≤ c.blocksize r := by
        rw [chunk_length]
        exact Nat.min_le_left _ _
      omega

lemma not_delivers_of_overflow {rrq : List Byte} {r : Rrq}
    (hroom : s.HasRoom addr) (hop : 2 ≤ rrq.length ∧ Server.unpackBe16 rrq 0 = 1)
    (hrrq : parseRrq rrq = some r) (hfile : c.resolveFile r.filename = some file)
    (hover : 65536 ≤ file.length/c.blocksize r+1) :
    ¬Delivers c s addr rrq file (c.blocksize r) := by
  rintro ⟨fuel,s',cl,hrun,hfin,_⟩
  obtain ⟨s₁,cl₁,k,hstart,hearly,hs₁,hcl₁,_⟩ := exchange_start hroom hop hrrq hfile
  have hunfinished : cl.finished = false := by
    rcases Nat.lt_or_ge fuel k with hlt | hge
    · exact hearly fuel hlt _ hrun
    · have hsplit := hstart (fuel-k)
      rw [Nat.sub_add_cancel hge,hrun] at hsplit
      exact exchange_unfinished (blocksize_pos c r) hover (fuel-k) 0 s₁ cl₁ (by decide) hs₁ hcl₁
        _ hsplit.symm
  rw [hunfinished] at hfin
  cases hfin

end

/-- A served file arrives if and only if its last block number fits sixteen bits. -/
theorem tftp_delivers_iff (c : Config) (s : Server A) (addr : A) {rrq file : List Byte} {r : Rrq}
    (hroom : s.HasRoom addr) (hop : 2 ≤ rrq.length ∧ Server.unpackBe16 rrq 0 = 1)
    (hrrq : parseRrq rrq = some r) (hfile : c.resolveFile r.filename = some file) :
    Delivers c s addr rrq file (c.blocksize r) ↔ file.length/c.blocksize r+1 < 65536 := by
  constructor
  · intro h
    by_contra hover
    exact not_delivers_of_overflow hroom hop hrrq hfile (by omega) h
  · exact delivers_of_fits hroom hop hrrq hfile

/-- A server that answers every request with one file. -/
def singleFile (file : List Byte) : Config :=
  ⟨[],some file,maxBlocksizeLimit,10,1,none,maxBlocksizeLimit_bounds⟩

/-- `RRQ fw octet`. -/
def plainRrq : List Byte := [0,1]++ascii "fw"++[0]++ascii "octet"++[0]

theorem small_file_delivers :
    Delivers (singleFile [1,2,3]) (Server.start : Server ℕ) 7 plainRrq [1,2,3] 512 :=
  (tftp_delivers_iff (singleFile [1,2,3]) Server.start 7 (r := ⟨ascii "fw",none⟩)
    (.inr (by decide)) (by decide) (by decide) rfl).mpr (by decide)

/-- A 32 MiB image in blocks of 512 bytes needs block number 65536. -/
theorem image_of_32MiB_raises :
    ¬Delivers (singleFile (List.replicate 33554432 0)) (Server.start : Server ℕ) 7 plainRrq
      (List.replicate 33554432 0) 512 := by
  refine not_delivers_of_overflow (r := ⟨ascii "fw",none⟩) (.inr (by decide)) (by decide)
    (by decide) rfl ?_
  rw [length_replicate]
  decide

end Defib.TftpDelivery
