import Defib.Dicts
import Defib.Splices
import Defib.Words

/-!
# The DHCP server for boot ROMs

`datagram_received` looks at the fixed part of a datagram, asks a predicate for the MAC and
walks the options, which are a code, a length and as many bytes each. A DISCOVER is answered
with an OFFER and a REQUEST for this server with an ACK. The type of the message is the first
byte of option 53, which may have none.
-/
namespace Defib.DhcpServer
open List Words Dicts Splices

def magic : List Byte := [0x63,0x82,0x53,0x63]
def discover : Byte := 1
def offer : Byte := 2
def request : Byte := 3
def ack : Byte := 5
def leaseSeconds : List Byte := [0,0,2,0x58]

/-- The loop of `_options`; a repeated code takes the later value. -/
def optionsFrom (opts : List (Byte × List Byte)) (data : List Byte) : List (Byte × List Byte) :=
  match data with
  | [] => opts
  | code::rest =>
    if code = 255 then opts
    else if code = 0 then optionsFrom opts rest
    else match rest with
      | [] => opts
      | size::rest =>
        optionsFrom (setItem code (rest.take size.toNat) opts) (rest.drop size.toNat)
termination_by data.length
decreasing_by
  · simp
  · simp only [length_drop,length_cons]
    omega

def options (data : List Byte) : List (Byte × List Byte) := optionsFrom [] data

/-- An address of four bytes. -/
abbrev Address := {bytes : List Byte // bytes.length = 4}

structure Config where
  clientIp : Address
  serverIp : Address
  netmask : Address
  bootfile : List Byte
  accept : List Byte → Bool

/-- The fields of the fixed part of a reply, in the order in which they are filled in: the
kind of hardware, the transaction id, the broadcast flag, the two addresses, the hardware
address, the boot file and the cookie. -/
def headFields (c : Config) (data : List Byte) : List (ℕ × List Byte) :=
  [(0,[0x02,0x01,0x06,0x00]),(4,field data 4 4),(10,[0x80,0x00]),(16,c.clientIp.val),
    (20,c.serverIp.val),(28,field data 28 16),(108,c.bootfile.take 127),(236,magic)]

def replyOptions (c : Config) (kind : Byte) : List Byte :=
  53::1::([kind]++54::4::(c.serverIp.val++51::4::(leaseSeconds++1::4::(c.netmask.val++[255]))))

def buildReply (c : Config) (data : List Byte) (kind : Byte) : List Byte :=
  spliceAll (List.replicate 240 0) (headFields c data)++replyOptions c kind

/-- `leases` has the MACs, which the source writes in hexadecimal. -/
structure Server where
  connected : Bool
  leases : List (List Byte)
  deriving DecidableEq, Repr

inductive IndexError where
  | outOfRange
  deriving DecidableEq, Repr

def replyTo (kind : Byte) : Option Byte :=
  if kind = discover then some offer else if kind = request then some ack else none

def BootRequest (data : List Byte) : Prop :=
  240 ≤ data.length ∧ data[0]? = some 1 ∧ field data 236 4 = magic

instance (data : List Byte) : Decidable (BootRequest data) :=
  inferInstanceAs (Decidable (_ ∧ _ ∧ _))

def mac (data : List Byte) : List Byte := field data 28 6

/-- `datagram_received`: the server and the datagram that is broadcast, if any. -/
def datagramReceived (c : Config) (s : Server) (data : List Byte) :
    Except IndexError (Server × Option (List Byte)) :=
  if data.length < 240 ∨ data[0]? ≠ some 1 ∨ field data 236 4 ≠ magic then .ok (s,none)
  else if c.accept (mac data) = false then .ok (s,none)
  else
    let opts := options (data.drop 240)
    match (getItem opts 53).getD [0] with
    | [] => .error .outOfRange
    | kind::_ =>
      if kind = request ∧ (getItem opts 54).getD c.serverIp.val ≠ c.serverIp.val then .ok (s,none)
      else match replyTo kind with
        | none => .ok (s,none)
        | some reply =>
          if s.connected then
            .ok (if reply = ack then {s with leases := s.leases++[mac data]} else s,
              some (buildReply c data reply))
          else .ok (s,none)

def messageType (data : List Byte) : Option Byte :=
  (getItem (options (data.drop 240)) 53).bind List.head?

/-- A reply as it should be. -/
structure Answers (c : Config) (data reply : List Byte) : Prop where
  wellFormed : BootRequest data
  accepted : c.accept (mac data) = true
  kind : (messageType data = some discover ∧ messageType reply = some offer) ∨
    (messageType data = some request ∧ messageType reply = some ack)
  xid : field reply 4 4 = field data 4 4
  chaddr : field reply 28 16 = field data 28 16

/-- No exception, and no reply but a proper one. -/
def Proper (c : Config) (s : Server) (data : List Byte) : Prop :=
  ∃ s' reply,datagramReceived c s data = .ok (s',reply) ∧ ∀ bytes ∈ reply,Answers c data bytes

section Replies
variable {c : Config} {data : List Byte} {kind : Byte}

lemma headFields_inside (h : 240 ≤ data.length) :
    ∀ f ∈ headFields c data,f.1+f.2.length ≤ (List.replicate 240 (0 : Byte)).length := by
  have hxid : (field data 4 4).length = 4 := field_length (by omega)
  have hchaddr : (field data 28 16).length = 16 := field_length (by omega)
  have hname : (c.bootfile.take 127).length ≤ 127 := length_take_le _ _
  rw [length_replicate]
  simp only [headFields,forall_mem_cons,not_mem_nil,IsEmpty.forall_iff,implies_true,
    and_true,hxid,hchaddr,c.clientIp.property,c.serverIp.property,magic,length_cons,length_nil]
  omega

lemma head_length (h : 240 ≤ data.length) :
    (spliceAll (List.replicate 240 0) (headFields c data)).length = 240 := by
  rw [spliceAll_length (headFields_inside h),length_replicate]

lemma field_head {before after : List (ℕ × List Byte)} {ys : List Byte} {i : ℕ}
    (h : 240 ≤ data.length) (hsplit : headFields c data = before++(i,ys)::after)
    (hafter : ∀ f ∈ after,i+ys.length ≤ f.1 ∨ f.1+f.2.length ≤ i) :
    field (spliceAll (List.replicate 240 0) (headFields c data)) i ys.length = ys := by
  have hin : ∀ f ∈ headFields c data,_ := headFields_inside h
  rw [hsplit] at hin ⊢
  exact field_spliceAll hin hafter

lemma field_reply_xid (h : 240 ≤ data.length) :
    field (buildReply c data kind) 4 4 = field data 4 4 := by
  have hxid : (field data 4 4).length = 4 := field_length (by omega)
  have hsplit : headFields c data = [(0,[0x02,0x01,0x06,0x00])]++(4,field data 4 4)::
      [(10,[0x80,0x00]),(16,c.clientIp.val),(20,c.serverIp.val),(28,field data 28 16),
        (108,c.bootfile.take 127),(236,magic)] := rfl
  have hfield := field_head h hsplit (by
    simp only [forall_mem_cons,not_mem_nil,IsEmpty.forall_iff,implies_true,and_true,
      hxid]
    omega)
  rw [hxid] at hfield
  rw [buildReply,field_append (by rw [head_length h]; decide),hfield]

lemma field_reply_chaddr (h : 240 ≤ data.length) :
    field (buildReply c data kind) 28 16 = field data 28 16 := by
  have hchaddr : (field data 28 16).length = 16 := field_length (by omega)
  have hsplit : headFields c data = [(0,[0x02,0x01,0x06,0x00]),(4,field data 4 4),
      (10,[0x80,0x00]),(16,c.clientIp.val),(20,c.serverIp.val)]++(28,field data 28 16)::
      [(108,c.bootfile.take 127),(236,magic)] := rfl
  have hfield := field_head h hsplit (by
    simp only [forall_mem_cons,not_mem_nil,IsEmpty.forall_iff,implies_true,and_true,
      hchaddr]
    omega)
  rw [hchaddr] at hfield
  rw [buildReply,field_append (by rw [head_length h]; decide),hfield]

lemma optionsFrom_option {opts : List (Byte × List Byte)} {code size : Byte}
    {value rest : List Byte} (hend : code ≠ 255) (hpad : code ≠ 0)
    (hlen : value.length = size.toNat) :
    optionsFrom opts (code::size::(value++rest)) =
      optionsFrom (setItem code value opts) rest := by
  rw [optionsFrom.eq_def]
  dsimp only
  rw [if_neg hend,if_neg hpad,← hlen,take_left,drop_left]

lemma optionsFrom_end (opts : List (Byte × List Byte)) (rest : List Byte) :
    optionsFrom opts (255::rest) = opts := by
  rw [optionsFrom.eq_def]
  exact if_pos rfl

lemma messageType_reply (h : 240 ≤ data.length) :
    messageType (buildReply c data kind) = some kind := by
  have hopts : options (replyOptions c kind) = setItem 1 c.netmask.val (setItem 51 leaseSeconds
      (setItem 54 c.serverIp.val (setItem 53 [kind] []))) := by
    rw [options,replyOptions,optionsFrom_option (by decide) (by decide) rfl,
      optionsFrom_option (by decide) (by decide) c.serverIp.property,
      optionsFrom_option (by decide) (by decide) rfl,
      optionsFrom_option (by decide) (by decide) c.netmask.property,optionsFrom_end]
  have hget : getItem (options (replyOptions c kind)) 53 = some [kind] := by
    rw [hopts,getItem_setItem,if_neg (by decide),getItem_setItem,if_neg (by decide),
      getItem_setItem,if_neg (by decide),getItem_setItem,if_pos rfl]
  rw [messageType,buildReply,drop_left' (head_length h),hget]
  rfl

end Replies

section Datagrams
variable {c : Config} {s : Server} {data : List Byte}

def Considered (c : Config) (data : List Byte) : Prop :=
  BootRequest data ∧ c.accept (mac data) = true

lemma not_bootRequest_iff : ¬ BootRequest data ↔
    (data.length < 240 ∨ data[0]? ≠ some 1 ∨ field data 236 4 ≠ magic) := by
  rw [BootRequest,not_and_or,not_and_or,not_le]

lemma datagramReceived_ignored (h : ¬ Considered c data) :
    datagramReceived c s data = .ok (s,none) := by
  rw [datagramReceived]
  split
  next => rfl
  next hreq =>
    rw [← not_bootRequest_iff,not_not] at hreq
    have haccept : c.accept (mac data) = false := by
      rw [Considered,not_and,Bool.not_eq_true] at h
      exact h hreq
    rw [if_pos haccept]

lemma datagramReceived_considered (h : Considered c data) :
    datagramReceived c s data =
      match (getItem (options (data.drop 240)) 53).getD [0] with
      | [] => .error .outOfRange
      | kind::_ =>
        if kind = request ∧ (getItem (options (data.drop 240)) 54).getD c.serverIp.val ≠
            c.serverIp.val then .ok (s,none)
        else match replyTo kind with
          | none => .ok (s,none)
          | some reply =>
            if s.connected then
              .ok (if reply = ack then {s with leases := s.leases++[mac data]} else s,
                some (buildReply c data reply))
            else .ok (s,none) := by
  rw [datagramReceived,if_neg (fun hno => not_bootRequest_iff.mpr hno h.1),
    if_neg (by rw [h.2]; decide)]

lemma answers_of_replyTo (h : Considered c data) {kind reply : Byte}
    (hkind : messageType data = some kind) (hreply : replyTo kind = some reply) :
    Answers c data (buildReply c data reply) where
  wellFormed := h.1
  accepted := h.2
  kind := by
    rw [messageType_reply h.1.1,hkind]
    rw [replyTo] at hreply
    split at hreply
    next hdiscover =>
      exact .inl ⟨congrArg some hdiscover,hreply.symm⟩
    next =>
      split at hreply
      next hrequest => exact .inr ⟨congrArg some hrequest,hreply.symm⟩
      next => cases hreply
  xid := field_reply_xid h.1.1
  chaddr := field_reply_chaddr h.1.1

lemma proper_of_type (h : Considered c data)
    (htype : getItem (options (data.drop 240)) 53 ≠ some []) : Proper c s data := by
  have hquiet : ∀ bytes,bytes ∈ (none : Option (List Byte)) → Answers c data bytes := nofun
  rw [Proper,datagramReceived_considered h]
  cases hopt : getItem (options (data.drop 240)) 53 with
  | none => exact ⟨s,none,rfl,hquiet⟩
  | some value =>
    cases value with
    | nil => exact absurd hopt htype
    | cons kind rest =>
      have hkind : messageType data = some kind := by
        rw [messageType,hopt]
        rfl
      rw [Option.getD_some]
      dsimp only
      split
      · exact ⟨s,none,rfl,hquiet⟩
      split
      · exact ⟨s,none,rfl,hquiet⟩
      next reply hreply =>
        split
        · refine ⟨_,_,rfl,fun bytes hbytes => ?_⟩
          rw [Option.mem_some_iff] at hbytes
          rw [← hbytes]
          exact answers_of_replyTo h hkind hreply
        · exact ⟨s,none,rfl,hquiet⟩

end Datagrams

/-- A datagram is handled properly just when it is dropped for its fixed part or its MAC, or
its last option 53, if it has one, is not empty. -/
theorem datagram_proper_iff (c : Config) (s : Server) (data : List Byte) :
    Proper c s data ↔ ¬ BootRequest data ∨ c.accept (mac data) = false ∨
      getItem (options (data.drop 240)) 53 ≠ some [] := by
  by_cases h : Considered c data
  · constructor
    · rintro ⟨s',reply,hrun,-⟩
      refine .inr (.inr fun hempty => ?_)
      rw [datagramReceived_considered h,hempty] at hrun
      cases hrun
    · rintro (hreq | haccept | htype)
      · exact absurd h.1 hreq
      · rw [h.2] at haccept
        cases haccept
      · exact proper_of_type h htype
  · refine iff_of_true ⟨s,none,datagramReceived_ignored h,nofun⟩ ?_
    rw [Considered,not_and_or,Bool.not_eq_true] at h
    exact h.imp_right Or.inl

def openConfig : Config where
  clientIp := ⟨[192,168,1,20],rfl⟩
  serverIp := ⟨[192,168,1,1],rfl⟩
  netmask := ⟨[255,255,255,0],rfl⟩
  bootfile := []
  accept := fun _ => true

/-- A request with the given options and nothing else. -/
def bareRequest (opts : List Byte) : List Byte := [1]++List.replicate 235 0++magic++opts

/-- An option 53 of length zero raises. -/
theorem empty_type_raises :
    datagramReceived openConfig ⟨true,[]⟩ (bareRequest [53,0]) = .error .outOfRange ∧
    ¬ Proper openConfig ⟨true,[]⟩ (bareRequest [53,0]) := by
  have hopts : options ((bareRequest [53,0]).drop 240) = [(53,[])] := by
    have hdrop : (bareRequest [53,0]).drop 240 = 53::0::([]++[]) := by decide
    rw [hdrop,options,optionsFrom_option (by decide) (by decide) rfl,optionsFrom.eq_def]
    rfl
  have hraise : datagramReceived openConfig ⟨true,[]⟩ (bareRequest [53,0]) =
      .error .outOfRange := by
    rw [datagramReceived_considered ⟨by decide +kernel,rfl⟩,hopts]
    rfl
  refine ⟨hraise,?_⟩
  rintro ⟨s',reply,hrun,-⟩
  rw [hraise] at hrun
  cases hrun

end Defib.DhcpServer
