import Defib.Actions
import Defib.Dicts
import Defib.PyText
import Defib.RouterOsCalls
import Defib.Runs

/-!
# Power over Ethernet through a RouterOS switch

`RouterOSController` remembers the poe-out mode of a port when it switches it off and sets
it again when it switches it on. Every call on its one connection appends the switch's answer
to the sentences that were not read and takes a response from them, as the byte stream does
(`RouterOsCalls.call_eq`). A label of the system is a call of `power_off` or `power_on`
together with what the switch does about each sentence: it may refuse it, before or after it
took effect, or the connection may end. The mode a port had before it was first switched off
is kept beside the controller to state what `power_on` is to restore.
-/
namespace Defib.PoePorts
open List Option Actions Dicts RouterOsWire RouterOsCalls

abbrev Text := Utf8.Text

def printCmd : Word := "/interface/ethernet/poe/print".toList
def setCmd : Word := "/interface/ethernet/poe/set".toList
def nameQuery : Text := "?name=".toList
def idKey : Text := ".id".toList
def nameKey : Text := "name".toList
def poeOutKey : Text := "poe-out".toList
def autoOn : Text := "auto-on".toList
def forcedOn : Text := "forced-on".toList
def off : Text := "off".toList

/-- The beginning of a word that gives an attribute. -/
def attrStart (key : Text) : Text := '='::(key++['='])

def attr (key value : Text) : Word := attrStart key++value

section Switch

structure Port where
  id : Text
  name : Text
  poeOut : Text
  deriving DecidableEq, Repr

structure Switch where
  ports : List Port
  ids_ne_nil : ∀ p ∈ ports,p.id ≠ []

def Switch.setting (sw : Switch) (name : Text) : Option Text :=
  (sw.ports.find? (·.name = name)).map Port.poeOut

def Port.setPoe (id mode : Text) (p : Port) : Port := if p.id = id then ⟨p.id,p.name,mode⟩ else p

@[simp] lemma Port.setPoe_id (id mode : Text) (p : Port) : (p.setPoe id mode).id = p.id := by
  rw [Port.setPoe]
  split_ifs <;> rfl

@[simp] lemma Port.setPoe_name (id mode : Text) (p : Port) :
    (p.setPoe id mode).name = p.name := by
  rw [Port.setPoe]
  split_ifs <;> rfl

def Switch.setPoe (sw : Switch) (id mode : Text) : Switch where
  ports := sw.ports.map (Port.setPoe id mode)
  ids_ne_nil := by
    intro p hp
    obtain ⟨q,hq,rfl⟩ := mem_map.mp hp
    rw [Port.setPoe_id]
    exact sw.ids_ne_nil q hq

/-- What the switch does about one sentence. -/
structure Behaviour where
  /-- the attributes of a `!trap` -/
  trap : Option (List Word)
  /-- entries sent before the `!trap` -/
  shown : ℕ
  /-- whether a command that is refused or not answered took effect -/
  applied : Bool
  /-- the connection ends before an answer comes -/
  lost : Bool
  deriving DecidableEq, Repr

def Port.attributes (p : Port) : List Word :=
  [attr idKey p.id,attr nameKey p.name,attr poeOutKey p.poeOut]

/-- The rest of a word after its known beginning. -/
def valueOf (key word : Word) : Option Text :=
  if key.isPrefixOf word then some (word.drop key.length) else none

lemma valueOf_append (key value : Word) : valueOf key (key++value) = some value := by
  rw [valueOf,if_pos (List.isPrefixOf_iff_prefix.mpr (prefix_append key value)),
    drop_left]

/-- What the switch does about a sentence it does not know. -/
def Switch.refuse (sw : Switch) (b : Behaviour) : Answer Word × Switch :=
  (⟨[],some (b.trap.getD []),[]⟩,sw)

def Switch.print (sw : Switch) (b : Behaviour) (name : Text) : Answer Word × Switch :=
  let ports := sw.ports.filter (·.name = name)
  let shown := if b.trap.isSome then ports.take b.shown else ports
  (⟨shown.map Port.attributes,b.trap,[]⟩,sw)

def Switch.set (sw : Switch) (b : Behaviour) (id mode : Text) : Answer Word × Switch :=
  if sw.ports.any (·.id = id) then
    (⟨[],b.trap,[]⟩,if b.applied || b.trap.isNone && !b.lost then sw.setPoe id mode else sw)
  else sw.refuse b

def Switch.handle (sw : Switch) (b : Behaviour) : Sentence → Answer Word × Switch
  | [cmd,query] =>
    match valueOf nameQuery query with
    | some name => if cmd = printCmd then sw.print b name else sw.refuse b
    | none => sw.refuse b
  | [cmd,id,mode] =>
    match valueOf (attrStart idKey) id,valueOf (attrStart poeOutKey) mode with
    | some id,some mode => if cmd = setCmd then sw.set b id mode else sw.refuse b
    | _,_ => sw.refuse b
  | _ => sw.refuse b

end Switch

section Controller

/-- The open connection: sentences not read yet, words of a sentence that was broken off by
the error "Word too long", and whether the stream has ended. -/
structure Conn where
  queue : List Sentence
  unsent : List Word
  ended : Bool
  deriving DecidableEq, Repr

structure System where
  switch : Switch
  conn : Option Conn
  saved : List (Text × Text)

inductive PowerError where
  | cannotConnect
  | wordTooLong
  | connectionLost
  | notFound (port : Text)
  | noId (port : Text)
  | failedToSet (mode port message : Text)
  deriving DecidableEq, Repr

abbrev Power := Act PowerError System

/-- `connects` says whether connecting and logging in works. -/
def connect (connects : Bool) : Power Unit := do
  let s ← get
  match s.conn with
  | some _ => return ()
  | none =>
    if connects then set {s with conn := some ⟨[],[],false⟩}
    else throw .cannotConnect

def fits (word : Word) : Bool := (Utf8.encode word).length < maxWord

/-- The sentences that come, and the switch, after a whole sentence was written. -/
def answerTo (b : Behaviour) (c : Conn) (sw : Switch) (words : Sentence) : List Sentence × Switch :=
  if c.ended then ([],sw)
  else
    let x := sw.handle b (c.unsent++words)
    (if b.lost then [] else x.1.sentences Mark.word,x.2)

/-- A stream that ends in the middle of a response has nothing left. On an ended connection
writing may fail. -/
def call (b : Behaviour) (words : Sentence) : Power (List Sentence) := do
  let s ← get
  match s.conn with
  | none => throw .connectionLost
  | some c =>
    if !words.all fits then
      set {s with conn := some {c with unsent := c.unsent++words.takeWhile fits}}
      throw .wordTooLong
    else if c.ended && b.lost then throw .connectionLost
    else
      let x := answerTo b c s.switch words
      let ended := c.ended || b.lost
      match takeResponse (c.queue++x.1) with
      | none =>
        set (System.mk x.2 (some ⟨[],[],ended⟩) s.saved)
        throw .connectionLost
      | some (response,rest) =>
        set (System.mk x.2 (some ⟨rest,[],ended⟩) s.saved)
        return response

/-- Words of the form `=key=value`. -/
def parseAttr : Word → Option (Text × Text)
  | '='::word => PyText.partition '=' word
  | _ => none

/-- The `!re` sentences as dictionaries. -/
def parseItems (response : List Sentence) : List (List (Text × Text)) :=
  (response.filter fun s => s.head? = some Mark.re.word).map fun s =>
    fill [] (s.tail.filterMap parseAttr)

def extractAttr (sentence : Sentence) (key : Text) : Option Text :=
  sentence.findSome? (valueOf (attrStart key))

def getPoeOut (connects : Bool) (b : Behaviour) (port : Text) : Power Text := do
  connect connects
  let response ← call b [printCmd,nameQuery++port]
  match parseItems response with
  | item::_ => return (getItem item poeOutKey).getD autoOn
  | [] => return autoOn

/-- The text of a `!trap` that says why. -/
def trapMessage (sentence : Sentence) : Text :=
  match extractAttr sentence "message".toList with
  | some (c::cs) => c::cs
  | _ => "unknown error".toList

/-- The check of the answer to the set command. -/
def checkSet (port mode : Text) (response : List Sentence) : Power Unit :=
  match response.find? fun s => s.head? = some Mark.trap.word with
  | some s => throw (.failedToSet mode port (trapMessage s))
  | none => return ()

/-- `_set_poe` after the answer to its print. -/
def setFound (change : Behaviour) (port mode : Text) (response : List Sentence) : Power Unit :=
  match parseItems response with
  | [] => throw (.notFound port)
  | item::_ =>
    match getItem item idKey with
    | some (c::cs) => do
      let response ← call change [setCmd,attr idKey (c::cs),attr poeOutKey mode]
      checkSet port mode response
    | _ => throw (.noId port)

def setPoe (connects : Bool) (find change : Behaviour) (port mode : Text) : Power Unit := do
  connect connects
  let response ← call find [printCmd,nameQuery++port]
  setFound change port mode response

/-- What happens around a call of `power_off` or `power_on`. -/
structure Around where
  connects : Bool
  /-- the print that reads the mode -/
  read : Behaviour
  /-- the print that looks for the id -/
  find : Behaviour
  change : Behaviour
  deriving DecidableEq, Repr

def powerOff (a : Around) (port : Text) : Power Unit := do
  let s ← get
  if (getItem s.saved port).isNone then
    let mode ← getPoeOut a.connects a.read port
    modify fun s => {s with saved := setItem port mode s.saved}
  setPoe a.connects a.find a.change port off

/-- A port that was off is switched on all the same. -/
def restoreMode (mode : Text) : Text := if mode = off then forcedOn else mode

def powerOn (a : Around) (port : Text) : Power Unit := do
  let s ← get
  let mode := (getItem s.saved port).getD forcedOn
  set {s with saved := delItem port s.saved}
  setPoe a.connects a.find a.change port (restoreMode mode)

end Controller

section Answers

lemma parseAttr_attr {key : Text} (h : '=' ∉ key) (value : Text) :
    parseAttr (attr key value) = some (key,value) := by
  rw [attr,attrStart,cons_append,append_assoc]
  exact PyText.partition_eq h value

def Port.item (p : Port) : List (Text × Text) := fill [] (p.attributes.filterMap parseAttr)

lemma Port.getItem_item (p : Port) :
    getItem p.item idKey = some p.id ∧ getItem p.item poeOutKey = some p.poeOut := by
  have hid : '=' ∉ idKey := by decide
  have hname : '=' ∉ nameKey := by decide
  have hmode : '=' ∉ poeOutKey := by decide
  have hattrs : p.attributes.filterMap parseAttr =
      [(idKey,p.id),(nameKey,p.name),(poeOutKey,p.poeOut)] := by
    simp only [Port.attributes,filterMap_cons,parseAttr_attr hid,parseAttr_attr hname,
      parseAttr_attr hmode,filterMap_nil]
  have h₁ : nameKey ≠ idKey := by decide
  have h₂ : poeOutKey ≠ idKey := by decide
  rw [Port.item,hattrs,getItem_fill,getItem_fill]
  simp [getItem_cons,h₁,h₂]

lemma parseItems_entries (ports : List Port) {word : Word} (h : word ≠ Mark.re.word)
    (words : List Word) :
    parseItems ((ports.map Port.attributes).map (Mark.re.word :: ·)++[word::words]) =
      ports.map Port.item := by
  simp [parseItems,h,List.filter_map,Function.comp_def,Port.item]

lemma handle_print (sw : Switch) (b : Behaviour) (port : Text) :
    sw.handle b [printCmd,nameQuery++port] = sw.print b port := by
  rw [Switch.handle,valueOf_append]
  exact if_pos rfl

lemma handle_set (sw : Switch) (b : Behaviour) (id mode : Text) :
    sw.handle b [setCmd,attr idKey id,attr poeOutKey mode] = sw.set b id mode := by
  rw [Switch.handle,attr,attr,valueOf_append,valueOf_append]
  exact if_pos rfl

lemma handle_switch (sw : Switch) (b : Behaviour) (words : Sentence) :
    (sw.handle b words).2 = sw ∨ ∃ id mode,(sw.handle b words).2 = sw.setPoe id mode := by
  have hset : ∀ id mode,(sw.set b id mode).2 = sw ∨ ∃ i m,(sw.set b id mode).2 = sw.setPoe i m := by
    intro id mode
    rw [Switch.set]
    split_ifs
    · exact .inr ⟨id,mode,rfl⟩
    · exact .inl rfl
    · exact .inl rfl
  rw [Switch.handle.eq_def]
  split
  · split
    · split_ifs <;> exact .inl rfl
    · exact .inl rfl
  · split
    · split_ifs
      · exact hset _ _
      · exact .inl rfl
    · exact .inl rfl
  · exact .inl rfl

lemma Switch.setPoe_find (sw : Switch) (id mode name : Text) :
    (sw.setPoe id mode).ports.find? (·.name = name) =
      (sw.ports.find? (·.name = name)).map (Port.setPoe id mode) := by
  rw [Switch.setPoe,find?_map]
  simp only [Function.comp_def,Port.setPoe_name]

lemma Switch.setting_setPoe_isSome (sw : Switch) (id mode name : Text) :
    ((sw.setPoe id mode).setting name).isSome = (sw.setting name).isSome := by
  rw [Switch.setting,Switch.setting,Switch.setPoe_find,isSome_map,isSome_map,
    isSome_map]

lemma handle_setting_isSome (sw : Switch) (b : Behaviour) (words : Sentence) (name : Text) :
    ((sw.handle b words).2.setting name).isSome = (sw.setting name).isSome := by
  obtain h | ⟨id,mode,h⟩ := handle_switch sw b words
  · rw [h]
  · rw [h,Switch.setting_setPoe_isSome]

end Answers

variable {s : System} {c : Conn}

section Calls

/-- A connection whose next response is not that of the next call. -/
def Conn.Stuck (c : Conn) : Prop := (takeResponse c.queue).isSome = true ∨ c.ended = true

def Stuck (s : System) : Prop := ∃ c,s.conn = some c ∧ c.Stuck

/-- A connection on which something was not read, or not written to its end. -/
def Broken (s : System) : Prop := ∃ c,s.conn = some c ∧ (c.Stuck ∨ c.unsent ≠ [])

lemma Stuck.broken (h : Stuck s) : Broken s := by
  obtain ⟨c,hc,hs⟩ := h
  exact ⟨c,hc,.inl hs⟩

/-- What no action undoes. -/
structure Onward (s s' : System) : Prop where
  listed : ∀ p,(s'.switch.setting p).isSome = (s.switch.setting p).isSome
  connected : s.conn.isSome = true → s'.conn.isSome = true
  stuck : Stuck s → Stuck s'

/-- What calls on the connection keep besides. -/
structure Later (s s' : System) : Prop extends Onward s s' where
  saved : s'.saved = s.saved

lemma Onward.refl (s : System) : Onward s s := ⟨fun _ => rfl,id,id⟩

lemma Onward.trans (s t u : System) (h : Onward s t) (h' : Onward t u) : Onward s u :=
  ⟨fun p => (h'.listed p).trans (h.listed p),fun hc => h'.connected (h.connected hc),
    fun hs => h'.stuck (h.stuck hs)⟩

lemma Later.refl (s : System) : Later s s := ⟨Onward.refl s,rfl⟩

lemma Later.trans (s t u : System) (h : Later s t) (h' : Later t u) : Later s u :=
  ⟨Onward.trans s t u h.toOnward h'.toOnward,h'.saved.trans h.saved⟩

lemma get_run (s : System) : (get : Power System) s = (.ok s,s) := rfl

lemma connect_some (h : s.conn = some c) (connects : Bool) :
    connect connects s = (.ok (),s) := by
  rw [connect,bind_ok (get_run s),h]
  rfl

lemma connect_none (h : s.conn = none) (connects : Bool) :
    connect connects s =
      if connects then (.ok (),{s with conn := some ⟨[],[],false⟩}) else
        (.error .cannotConnect,s) := by
  rw [connect,bind_ok (get_run s),h]
  cases connects with
  | true => rfl
  | false => rfl

lemma call_cases (b : Behaviour) (words : Sentence) (h : s.conn = some c) :
    (words.all fits = false ∧ call b words s =
      (.error .wordTooLong,
        {s with conn := some {c with unsent := c.unsent++words.takeWhile fits}})) ∨
    (words.all fits = true ∧ c.ended = true ∧ call b words s = (.error .connectionLost,s)) ∨
    (words.all fits = true ∧
      (takeResponse (c.queue++(answerTo b c s.switch words).1) = none ∧ call b words s =
        (.error .connectionLost,
          ⟨(answerTo b c s.switch words).2,some ⟨[],[],c.ended || b.lost⟩,s.saved⟩) ∨
      ∃ response rest,
        takeResponse (c.queue++(answerTo b c s.switch words).1) = some (response,rest) ∧
        call b words s = (.ok response,
          ⟨(answerTo b c s.switch words).2,some ⟨rest,[],c.ended || b.lost⟩,s.saved⟩))) := by
  rw [call,bind_ok (get_run s),h]
  dsimp only
  cases hfits : words.all fits with
  | false => exact .inl ⟨rfl,rfl⟩
  | true =>
    right
    cases hend : c.ended && b.lost with
    | true =>
      rw [Bool.and_eq_true] at hend
      exact .inl ⟨rfl,hend.1,rfl⟩
    | false =>
      refine .inr ⟨rfl,?_⟩
      cases htake : takeResponse (c.queue++(answerTo b c s.switch words).1) with
      | none => exact .inl ⟨rfl,rfl⟩
      | some x => exact .inr ⟨x.1,x.2,rfl,rfl⟩

lemma answerTo_listed (b : Behaviour) (c : Conn) (sw : Switch) (words : Sentence) (p : Text) :
    ((answerTo b c sw words).2.setting p).isSome = (sw.setting p).isSome := by
  rw [answerTo]
  split_ifs
  · rfl
  · exact handle_setting_isSome sw b _ p
  · exact handle_setting_isSome sw b _ p

lemma call_stuck (b : Behaviour) (words : Sentence) (h : Stuck s) :
    Stuck (call b words s).2 := by
  obtain ⟨c,hc,hstuck⟩ := h
  obtain ⟨_,hcall⟩ | ⟨_,_,hcall⟩ | ⟨_,hread⟩ := call_cases b words hc
  · rw [hcall]
    exact ⟨_,rfl,hstuck⟩
  · rw [hcall]
    exact ⟨c,hc,hstuck⟩
  · by_cases hend : c.ended = true
    · obtain ⟨_,hcall⟩ | ⟨response,rest,_,hcall⟩ := hread
      · rw [hcall]
        exact ⟨_,rfl,.inr (by simp only [hend,Bool.true_or])⟩
      · rw [hcall]
        exact ⟨_,rfl,.inr (by simp only [hend,Bool.true_or])⟩
    · obtain ⟨⟨_,left⟩,hx⟩ := isSome_iff_exists.mp (hstuck.resolve_right hend)
      have happend := takeResponse_append hx (answerTo b c s.switch words).1
      obtain ⟨hnone,_⟩ | ⟨response,rest,hsome,hcall⟩ := hread
      · rw [happend] at hnone
        cases hnone
      · rw [happend] at hsome
        cases hsome
        rw [hcall]
        refine ⟨_,rfl,?_⟩
        cases hlost : b.lost with
        | true => exact .inr (by simp only [Bool.or_true])
        | false =>
          left
          rw [answerTo,if_neg hend,hlost]
          have hanswer := takeResponse_isSome left (s.switch.handle b (c.unsent++words)).1 []
          rwa [append_nil] at hanswer

lemma call_later (b : Behaviour) (words : Sentence) : Leads Later (call b words) := by
  intro s
  cases hc : s.conn with
  | none =>
    have hcall : call b words s = (.error .connectionLost,s) := by
      rw [call,bind_ok (get_run s),hc]
      rfl
    rw [hcall]
    exact Later.refl s
  | some c =>
    have hstuck : Stuck s → Stuck (call b words s).2 := call_stuck b words
    obtain ⟨_,hcall⟩ | ⟨_,_,hcall⟩ | ⟨_,⟨_,hcall⟩ | ⟨response,rest,_,hcall⟩⟩ :=
      call_cases b words hc
    · rw [hcall] at hstuck ⊢
      exact ⟨⟨fun _ => rfl,fun _ => rfl,hstuck⟩,rfl⟩
    · rw [hcall]
      exact Later.refl s
    · rw [hcall] at hstuck ⊢
      exact ⟨⟨answerTo_listed b c s.switch words,fun _ => rfl,hstuck⟩,rfl⟩
    · rw [hcall] at hstuck ⊢
      exact ⟨⟨answerTo_listed b c s.switch words,fun _ => rfl,hstuck⟩,rfl⟩

lemma connect_later (connects : Bool) : Leads Later (connect connects) := by
  intro s
  cases hc : s.conn with
  | some c =>
    rw [connect_some hc]
    exact Later.refl s
  | none =>
    rw [connect_none hc]
    cases connects with
    | true =>
      refine ⟨⟨fun _ => rfl,fun _ => rfl,?_⟩,rfl⟩
      rintro ⟨c,hconn,_⟩
      rw [hc] at hconn
      cases hconn
    | false => exact Later.refl s

lemma getPoeOut_later (connects : Bool) (b : Behaviour) (port : Text) :
    Leads Later (getPoeOut connects b port) := by
  refine Leads.bind Later.trans (connect_later connects) fun _ => ?_
  refine Leads.bind Later.trans (call_later b _) fun response => ?_
  cases parseItems response with
  | nil => exact Leads.pure Later.refl _
  | cons item items => exact Leads.pure Later.refl _

lemma checkSet_later (port mode : Text) (response : List Sentence) :
    Leads Later (checkSet port mode response) := by
  rw [checkSet]
  split
  · exact Leads.throw Later.refl _
  · exact Leads.pure Later.refl _

lemma setFound_later (change : Behaviour) (port mode : Text) (response : List Sentence) :
    Leads Later (setFound change port mode response) := by
  rw [setFound]
  cases parseItems response with
  | nil => exact Leads.throw Later.refl _
  | cons item items =>
    dsimp only
    split
    · exact Leads.bind Later.trans (call_later change _) (checkSet_later port mode)
    · exact Leads.throw Later.refl _

lemma setPoe_later (connects : Bool) (find change : Behaviour) (port mode : Text) :
    Leads Later (setPoe connects find change port mode) :=
  Leads.bind Later.trans (connect_later connects) fun _ =>
    Leads.bind Later.trans (call_later find _) (setFound_later change port mode)

/-- The connection after a call that was answered and read to its end. -/
def fresh : Conn := ⟨[],[],false⟩

/-- A call on a fresh connection raises, or is refused, or returns the whole answer; only then
the connection stays fresh. -/
theorem call_fresh (b : Behaviour) {cmd : Word} (hcmd : fits cmd = true) (args : List Word)
    (hc : s.conn = some fresh) :
    (∃ e s',call b (cmd::args) s = (.error e,s') ∧ Broken s') ∨
    (∃ t s',(s.switch.handle b (cmd::args)).1.trap = some t ∧ call b (cmd::args) s =
      (.ok ((s.switch.handle b (cmd::args)).1.re.map (Mark.re.word :: ·)++[Mark.trap.word::t]),s') ∧
        Stuck s') ∨
    ((s.switch.handle b (cmd::args)).1.trap = none ∧ b.lost = false ∧ call b (cmd::args) s =
      (.ok ((s.switch.handle b (cmd::args)).1.sentences Mark.word),
        ⟨(s.switch.handle b (cmd::args)).2,some fresh,s.saved⟩)) := by
  have hanswer : answerTo b fresh s.switch (cmd::args) =
      (if b.lost then [] else (s.switch.handle b (cmd::args)).1.sentences Mark.word,
        (s.switch.handle b (cmd::args)).2) := rfl
  obtain ⟨_,hcall⟩ | ⟨_,hended,_⟩ | ⟨_,hread⟩ := call_cases b (cmd::args) hc
  · refine .inl ⟨_,_,hcall,_,rfl,.inr ?_⟩
    rw [takeWhile_cons_of_pos hcmd]
    exact append_ne_nil_of_right_ne_nil _ (cons_ne_nil _ _)
  · cases hended
  · rw [hanswer] at hread
    cases hlost : b.lost with
    | true =>
      rw [hlost] at hread
      obtain ⟨_,hcall⟩ | ⟨response,rest,hsome,_⟩ := hread
      · exact .inl ⟨_,_,hcall,_,rfl,.inl (.inr rfl)⟩
      · cases hsome
    | false =>
      rw [hlost,if_neg Bool.false_ne_true,← append_nil (Answer.sentences _ _)] at hread
      cases htrap : (s.switch.handle b (cmd::args)).1.trap with
      | some t =>
        have htake := takeResponse_trap htrap []
        right
        left
        obtain ⟨hnone,_⟩ | ⟨response,rest,hsome,hcall⟩ := hread
        · rw [fresh,nil_append,htake] at hnone
          cases hnone
        · rw [fresh,nil_append,htake] at hsome
          cases hsome
          refine ⟨t,_,rfl,hcall,_,rfl,.inl ?_⟩
          have hdone : isFinal Mark.done.word = true := by decide
          rw [takeResponse,if_pos hdone,isSome_some]
      | none =>
        have htake := takeResponse_done htrap []
        right
        right
        obtain ⟨hnone,_⟩ | ⟨response,rest,hsome,hcall⟩ := hread
        · rw [fresh,nil_append,htake] at hnone
          cases hnone
        · rw [fresh,nil_append,htake] at hsome
          cases hsome
          exact ⟨rfl,rfl,hcall⟩

lemma call_ended (b : Behaviour) (words : Sentence)
    (hc : s.conn = some c) (hqueue : c.queue = []) (hended : c.ended = true) :
    ∃ e s',call b words s = (.error e,s') := by
  obtain ⟨_,hcall⟩ | ⟨_,_,hcall⟩ | ⟨_,⟨_,hcall⟩ | ⟨response,rest,hsome,_⟩⟩ := call_cases b words hc
  · exact ⟨_,_,hcall⟩
  · exact ⟨_,_,hcall⟩
  · exact ⟨_,_,hcall⟩
  · rw [answerTo,if_pos hended,hqueue] at hsome
    cases hsome

end Calls

variable {port mode : Text}

section Settings

lemma fits_printCmd : fits printCmd = true := by decide +kernel

lemma fits_setCmd : fits setCmd = true := by decide +kernel

lemma print_fresh (b : Behaviour) (port : Text) (hc : s.conn = some fresh) :
    (∃ e s',call b [printCmd,nameQuery++port] s = (.error e,s') ∧ Broken s') ∨
    (b.trap.isSome = true ∧ ∃ response s',
      call b [printCmd,nameQuery++port] s = (.ok response,s') ∧ Stuck s' ∧
        parseItems response =
          ((s.switch.ports.filter (·.name = port)).take b.shown).map Port.item) ∨
    ∃ response,call b [printCmd,nameQuery++port] s = (.ok response,s) ∧
      parseItems response = (s.switch.ports.filter (·.name = port)).map Port.item := by
  have h := call_fresh b fits_printCmd [nameQuery++port] hc
  rw [handle_print] at h
  obtain herror | ⟨t,s',htrap,hcall,hstuck⟩ | ⟨htrap,_,hcall⟩ := h
  · exact .inl herror
  · have hb : b.trap = some t := htrap
    refine .inr (.inl ⟨hb ▸ rfl,_,s',hcall,hstuck,?_⟩)
    rw [Switch.print,hb]
    exact parseItems_entries _ (by decide) t
  · have hb : b.trap = none := htrap
    have hs : (⟨s.switch,some fresh,s.saved⟩ : System) = s := by rw [← hc]
    refine .inr (.inr ⟨_,hcall.trans (congrArg _ hs),?_⟩)
    rw [Switch.print,hb,Answer.sentences,toList_none,map_nil,append_nil]
    exact parseItems_entries _ (by decide) []

variable {p : Port}

lemma filter_of_find {sw : Switch} (hp : sw.ports.find? (·.name = port) = some p) :
    ∃ ports,sw.ports.filter (·.name = port) = p::ports :=
  head?_eq_some_iff.mp (head?_filter.trans hp)

lemma getPoeOut_fresh (connects : Bool) (b : Behaviour)
    (hc : s.conn = some fresh) (hmode : s.switch.setting port = some mode) :
    Broken (getPoeOut connects b port s).2 ∧
        (∀ m,(getPoeOut connects b port s).1 = .ok m → Stuck (getPoeOut connects b port s).2) ∨
      getPoeOut connects b port s = (.ok mode,s) := by
  rw [getPoeOut,bind_ok (connect_some hc connects)]
  obtain ⟨e,s',hcall,hbroken⟩ | ⟨_,response,s',hcall,hstuck,_⟩ | ⟨response,hcall,hitems⟩ :=
    print_fresh b port hc
  · rw [bind_error hcall]
    exact .inl ⟨hbroken,fun m hm => by cases hm⟩
  · rw [bind_ok hcall]
    left
    cases parseItems response with
    | nil => exact ⟨hstuck.broken,fun _ _ => hstuck⟩
    | cons item items => exact ⟨hstuck.broken,fun _ _ => hstuck⟩
  · right
    obtain ⟨p,hp,rfl⟩ := map_eq_some_iff.mp hmode
    obtain ⟨ports,hports⟩ := filter_of_find hp
    rw [bind_ok hcall,hitems,hports,map_cons]
    simp only [p.getItem_item.2,getD_some]
    rfl

lemma set_setting (sw : Switch) {b : Behaviour} (hb : b.trap = none) (hlost : b.lost = false)
    (hp : sw.ports.find? (·.name = port) = some p) :
    (sw.set b p.id mode).2.setting port = some mode := by
  have hid : sw.ports.any (·.id = p.id) = true :=
    any_eq_true.mpr ⟨p,mem_of_find?_eq_some hp,by simp⟩
  rw [Switch.set,if_pos hid,hb,hlost,Switch.setting]
  simp only [isNone_none,Bool.not_false,Bool.and_self,Bool.or_true,if_true]
  rw [Switch.setPoe_find,hp,map_some,map_some,Port.setPoe,if_pos rfl]

lemma set_trap (sw : Switch) {b : Behaviour}
    (hp : sw.ports.find? (·.name = port) = some p) : (sw.set b p.id mode).1.trap = b.trap := by
  have hid : sw.ports.any (·.id = p.id) = true :=
    any_eq_true.mpr ⟨p,mem_of_find?_eq_some hp,by simp⟩
  rw [Switch.set,if_pos hid]

lemma setPoe_connected (connects : Bool) (find change : Behaviour) (port mode : Text)
    (hc : s.conn = some c) :
    setPoe connects find change port mode s =
      (call find [printCmd,nameQuery++port] >>= setFound change port mode) s := by
  rw [setPoe,bind_ok (connect_some hc connects)]

lemma setFound_item (change : Behaviour) (port mode : Text) {response : List Sentence}
    (hid : p.id ≠ []) {items : List (List (Text × Text))}
    (hitems : parseItems response = p.item::items) :
    setFound change port mode response =
      call change [setCmd,attr idKey p.id,attr poeOutKey mode] >>= checkSet port mode := by
  obtain ⟨ch,chs,hcons⟩ := exists_cons_of_ne_nil hid
  rw [setFound,hitems]
  dsimp only
  rw [p.getItem_item.1,hcons]

lemma checkSet_trap (port mode : Text) (a : Answer Word) (t : List Word) (s : System) :
    ∃ e,checkSet port mode (a.re.map (Mark.re.word :: ·)++[Mark.trap.word::t]) s =
      (.error e,s) := by
  rw [checkSet]
  cases h : List.find? _ _ with
  | some sentence => exact ⟨_,rfl⟩
  | none =>
    rw [find?_eq_none] at h
    have hlast := h (Mark.trap.word::t) (mem_append_right _ (mem_singleton.mpr rfl))
    simp at hlast

lemma checkSet_done (port mode : Text) {a : Answer Word} (ha : a.re = []) (htrap : a.trap = none)
    (s : System) : checkSet port mode (a.sentences Mark.word) s = (.ok (),s) := by
  have hdone : Mark.done.word ≠ Mark.trap.word := by decide
  rw [checkSet,Answer.sentences,ha,htrap]
  simp [hdone]
  rfl

lemma setFound_fresh (change : Behaviour)
    (hc : s.conn = some fresh) (hp : s.switch.ports.find? (·.name = port) = some p)
    {response : List Sentence} {items : List (List (Text × Text))}
    (hitems : parseItems response = p.item::items) :
    (∃ e s',setFound change port mode response s = (.error e,s') ∧ Broken s') ∨
      ∃ s',setFound change port mode response s = (.ok (),s') ∧
        s'.switch.setting port = some mode := by
  have hid := s.switch.ids_ne_nil p (mem_of_find?_eq_some hp)
  rw [setFound_item change port mode hid hitems]
  obtain ⟨e,s',hcall,hbroken⟩ | ⟨t,s',_,hcall,hstuck⟩ | ⟨htrap,hlost,hcall⟩ :=
    call_fresh change fits_setCmd [attr idKey p.id,attr poeOutKey mode] hc
  · exact .inl ⟨e,s',bind_error hcall,hbroken⟩
  · obtain ⟨e,hcheck⟩ := checkSet_trap port mode
      (s.switch.handle change [setCmd,attr idKey p.id,attr poeOutKey mode]).1 t s'
    exact .inl ⟨e,s',(bind_ok hcall).trans hcheck,hstuck.broken⟩
  · rw [handle_set] at htrap hcall
    rw [bind_ok hcall]
    have hre : (s.switch.set change p.id mode).1.re = [] := by
      rw [Switch.set]
      split_ifs <;> rfl
    refine .inr ⟨_,checkSet_done port mode hre htrap _,?_⟩
    exact set_setting s.switch ((set_trap s.switch hp).symm.trans htrap) hlost hp

lemma setPoe_fresh (connects : Bool) (find change : Behaviour) (mode : Text)
    (hc : s.conn = some fresh) (hlisted : (s.switch.setting port).isSome = true) :
    Broken (setPoe connects find change port mode s).2 ∨
      ∃ s',setPoe connects find change port mode s = (.ok (),s') := by
  obtain ⟨p,hp⟩ := isSome_iff_exists.mp (isSome_map.symm.trans hlisted)
  rw [setPoe_connected connects find change port mode hc]
  obtain ⟨e,t,hcall,hbroken⟩ | ⟨_,response,t,hcall,hstuck,_⟩ | ⟨response,hcall,hitems⟩ :=
    print_fresh find port hc
  · rw [bind_error hcall]
    exact .inl hbroken
  · rw [bind_ok hcall]
    exact .inl ((setFound_later change port mode response t).stuck hstuck).broken
  · obtain ⟨ports,hports⟩ := filter_of_find hp
    rw [hports,map_cons] at hitems
    rw [bind_ok hcall]
    obtain ⟨e,s',hset,hbroken⟩ | ⟨s',hset,_⟩ := setFound_fresh change hc hp hitems
    · rw [hset]
      exact .inl hbroken
    · exact .inr ⟨s',hset⟩

lemma setPoe_ok (connects : Bool) (find change : Behaviour) {s s' : System}
    (hc : s.conn = some fresh) (hfind : find.trap.isSome = true → find.shown = 0)
    (h : setPoe connects find change port mode s = (.ok (),s')) :
    s'.switch.setting port = some mode := by
  rw [setPoe_connected connects find change port mode hc] at h
  obtain ⟨e,t,hcall,_⟩ | ⟨htrap,response,t,hcall,_,hitems⟩ | ⟨response,hcall,hitems⟩ :=
    print_fresh find port hc
  · rw [bind_error hcall] at h
    cases h
  · rw [hfind htrap,take_zero,map_nil] at hitems
    rw [bind_ok hcall,setFound,hitems] at h
    cases h
  · rw [bind_ok hcall] at h
    cases hp : s.switch.ports.find? (·.name = port) with
    | none =>
      have hnil := head?_eq_none_iff.mp (head?_filter.trans hp)
      rw [hnil,map_nil] at hitems
      rw [setFound,hitems] at h
      cases h
    | some p =>
      obtain ⟨ports,hports⟩ := filter_of_find hp
      rw [hports,map_cons] at hitems
      obtain ⟨e,t,hset,_⟩ | ⟨t,hset,hmode⟩ := setFound_fresh change hc hp hitems
      · cases hset.symm.trans h
      · cases hset.symm.trans h
        exact hmode

lemma setPoe_ended (connects : Bool) (find change : Behaviour) (port mode : Text)
    (hc : s.conn = some c) (hqueue : c.queue = []) (hended : c.ended = true) :
    ∃ e s',setPoe connects find change port mode s = (.error e,s') := by
  obtain ⟨e,s',hcall⟩ := call_ended find [printCmd,nameQuery++port] hc hqueue hended
  exact ⟨e,s',(setPoe_connected connects find change port mode hc).trans (bind_error hcall)⟩

end Settings

section Restoring

inductive Op where
  | off
  | on
  deriving DecidableEq, Repr

structure Label where
  op : Op
  port : Text
  around : Around
  deriving DecidableEq, Repr

def run (l : Label) : Power Unit :=
  match l.op with
  | .off => powerOff l.around l.port
  | .on => powerOn l.around l.port

/-- `before` has the mode of each port before the first `power_off` since the last `power_on`
that worked. -/
structure World where
  system : System
  before : Text → Option Text

def step (w : World) (l : Label) : World where
  system := (run l w.system).2
  before :=
    match l.op,(run l w.system).1 with
    | .off,_ =>
      if (w.before l.port).isNone then
        Function.update w.before l.port (w.system.switch.setting l.port)
      else w.before
    | .on,.ok _ => Function.update w.before l.port none
    | .on,.error _ => w.before

def start (sw : Switch) : World := ⟨⟨sw,none,[]⟩,fun _ => none⟩

/-- A `power_on` that works leaves the port in the mode it is to restore. -/
def Restored (w : World) (l : Label) : Prop :=
  l.op = .on → ∀ s',run l w.system = (.ok (),s') → ∀ mode,w.before l.port = some mode →
    s'.switch.setting l.port = some (restoreMode mode)

def Conn.clear (c : Conn) : Bool := c.queue.isEmpty && c.unsent.isEmpty

/-- Nothing is left on the connection from earlier calls; a `power_off` that has to connect can
do so; and the print of a `power_on` is not refused after it has shown an entry. -/
def Clean (w : World) (l : Label) : Prop :=
  w.system.conn.all Conn.clear = true ∧
    (w.system.conn.isNone = true → l.op = .off → l.around.connects = true) ∧
    (l.op = .on → l.around.find.trap.isSome = true → l.around.find.shown = 0)

instance (w : World) (l : Label) : Decidable (Clean w l) :=
  inferInstanceAs (Decidable (_ ∧ _ ∧ _))

structure Inv (w : World) : Prop where
  listed : ∀ p m,w.before p = some m → (w.system.switch.setting p).isSome = true
  connected : ∀ p m,w.before p = some m → w.system.conn.isSome = true
  kept : ∀ p m,w.before p = some m → Broken w.system ∨ getItem w.system.saved p = some m
  saved : ∀ p,(getItem w.system.saved p).isSome = true →
    (w.before p).isSome = true ∨ w.system.switch.setting p = none

lemma inv_start (sw : Switch) : Inv (start sw) :=
  ⟨nofun,nofun,nofun,nofun⟩

lemma Conn.fresh_or_ended (h : c.clear = true) :
    c = fresh ∨ c.queue = [] ∧ c.ended = true := by
  obtain ⟨queue,unsent,ended⟩ := c
  simp only [Conn.clear,Bool.and_eq_true,List.isEmpty_iff] at h
  obtain ⟨rfl,rfl⟩ := h
  cases ended with
  | false => exact .inl rfl
  | true => exact .inr ⟨rfl,rfl⟩

lemma Broken.stuck (h : Broken s) (hclear : s.conn.all Conn.clear = true) :
    Stuck s := by
  obtain ⟨c,hc,hbroken⟩ := h
  rw [hc,all_some] at hclear
  refine ⟨c,hc,hbroken.resolve_right fun hunsent => hunsent ?_⟩
  simp only [Conn.clear,Bool.and_eq_true,List.isEmpty_iff] at hclear
  exact hclear.2

lemma powerOn_run (a : Around) (port : Text) (s : System) :
    powerOn a port s = setPoe a.connects a.find a.change port
      (restoreMode ((getItem s.saved port).getD forcedOn)) {s with saved := delItem port s.saved} :=
  rfl

lemma powerOff_saved (a : Around) (h : (getItem s.saved port).isSome = true) :
    powerOff a port s = setPoe a.connects a.find a.change port off s := by
  rw [powerOff,bind_ok (get_run s)]
  have hnot : (getItem s.saved port).isNone = false := by rw [isNone_eq_false_iff,h]
  rw [hnot]
  rfl

/-- What `power_off` does after it has read the mode. -/
def saveAndSet (a : Around) (port mode : Text) : Power Unit := do
  modify fun s => {s with saved := setItem port mode s.saved}
  setPoe a.connects a.find a.change port off

lemma saveAndSet_run (a : Around) (port mode : Text) (s : System) :
    saveAndSet a port mode s = setPoe a.connects a.find a.change port off
      {s with saved := setItem port mode s.saved} :=
  rfl

lemma powerOff_unsaved (a : Around) (h : getItem s.saved port = none) :
    powerOff a port s = (getPoeOut a.connects a.read port >>= saveAndSet a port) s := by
  rw [powerOff,bind_ok (get_run s),h]
  rfl

variable {l : Label} {w : World}

lemma restored (hinv : Inv w) (hclean : Clean w l) : Restored w l := by
  intro hop s' hrun mode hbefore
  obtain ⟨hclear,_,hfind⟩ := hclean
  obtain ⟨c,hc⟩ := isSome_iff_exists.mp (hinv.connected _ _ hbefore)
  have hclearc : c.clear = true := by rwa [hc,all_some] at hclear
  rw [run,hop] at hrun
  dsimp only at hrun
  rw [powerOn_run] at hrun
  obtain rfl | ⟨hqueue,hended⟩ := Conn.fresh_or_ended hclearc
  · have hsaved : getItem w.system.saved l.port = some mode := by
      refine (hinv.kept _ _ hbefore).resolve_left fun hbroken => ?_
      obtain ⟨c,hc',hstuck⟩ := hbroken.stuck hclear
      rw [hc] at hc'
      cases hc'
      exact hstuck.elim Bool.false_ne_true Bool.false_ne_true
    rw [hsaved,getD_some] at hrun
    exact setPoe_ok (s := ⟨w.system.switch,w.system.conn,delItem l.port w.system.saved⟩)
      l.around.connects l.around.find l.around.change hc (hfind hop) hrun
  · obtain ⟨e,t,hfail⟩ := setPoe_ended l.around.connects l.around.find l.around.change l.port
      (restoreMode ((getItem w.system.saved l.port).getD forcedOn))
      (s := ⟨w.system.switch,w.system.conn,delItem l.port w.system.saved⟩) hc hqueue hended
    cases hfail.symm.trans hrun

lemma onward_saved (s : System) (saved : List (Text × Text)) : Onward s {s with saved := saved} :=
  ⟨fun _ => rfl,id,id⟩

lemma run_onward (l : Label) : Leads Onward (run l) := by
  have hset : ∀ mode saved s,
      Onward s (setPoe l.around.connects l.around.find l.around.change l.port mode
        {s with saved := saved}).2 := by
    intro mode saved s
    exact Onward.trans _ _ _ (onward_saved s saved) (setPoe_later _ _ _ _ _ _).toOnward
  intro s
  rw [run]
  cases l.op with
  | on => exact hset _ _ s
  | off =>
    dsimp only
    cases hsaved : getItem s.saved l.port with
    | some mode =>
      rw [powerOff_saved l.around (by rw [hsaved,isSome_some])]
      exact (setPoe_later _ _ _ _ _ _).toOnward
    | none =>
      rw [powerOff_unsaved l.around hsaved]
      refine Leads.bind Onward.trans ?_ (fun mode s => hset off _ s) s
      exact fun s => (getPoeOut_later _ _ _ s).toOnward

lemma powerOff_run_saved (a : Around) (port : Text) {mode : Text}
    (h : getItem s.saved port = some mode) : (powerOff a port s).2.saved = s.saved := by
  rw [powerOff_saved a (by rw [h,isSome_some])]
  exact (setPoe_later _ _ _ _ _ s).saved

lemma run_saved_of_ne (l : Label) (s : System) {p : Text} (h : l.port ≠ p) :
    getItem (run l s).2.saved p = getItem s.saved p := by
  rw [run]
  cases l.op with
  | on =>
    dsimp only
    rw [powerOn_run,(setPoe_later _ _ _ _ _ _).saved,getItem_delItem,if_neg h]
  | off =>
    dsimp only
    cases hsaved : getItem s.saved l.port with
    | some mode => rw [powerOff_run_saved l.around l.port hsaved]
    | none =>
      rw [powerOff_unsaved l.around hsaved]
      have hread := (getPoeOut_later l.around.connects l.around.read l.port s).saved
      cases hx : getPoeOut l.around.connects l.around.read l.port s with
      | mk r t =>
        rw [hx] at hread
        cases r with
        | error e => rw [bind_error hx,hread]
        | ok mode =>
          rw [bind_ok hx,saveAndSet_run,(setPoe_later _ _ _ _ _ _).saved,getItem_setItem,
            if_neg h,hread]

lemma powerOn_saved (a : Around) (port : Text) (s : System) :
    getItem (powerOn a port s).2.saved port = none := by
  rw [powerOn_run,(setPoe_later _ _ _ _ _ _).saved,getItem_delItem,if_pos rfl]

lemma connect_first {A : Type} (f : Unit → Power A) (hc : s.conn = none) :
    (connect true >>= f) s = (connect true >>= f) {s with conn := some fresh} := by
  have h : connect true s = (.ok (),{s with conn := some fresh}) :=
    (connect_none hc true).trans (if_pos rfl)
  rw [bind_ok h,bind_ok (connect_some rfl true)]

lemma powerOff_connects {a : Around} (ha : a.connects = true) (port : Text)
    (hc : s.conn = none) : powerOff a port s = powerOff a port {s with conn := some fresh} := by
  cases hsaved : getItem s.saved port with
  | some mode =>
    have hsome : (getItem s.saved port).isSome = true := by rw [hsaved,isSome_some]
    rw [powerOff_saved a hsome,powerOff_saved a (s := ⟨s.switch,some fresh,s.saved⟩) hsome,ha]
    exact connect_first _ hc
  | none =>
    rw [powerOff_unsaved a hsaved,powerOff_unsaved a (s := ⟨s.switch,some fresh,s.saved⟩) hsaved]
    have hread : getPoeOut a.connects a.read port s =
        getPoeOut a.connects a.read port {s with conn := some fresh} := by
      rw [ha]
      exact connect_first _ hc
    cases hx : getPoeOut a.connects a.read port s with
    | mk r t =>
      rw [hx] at hread
      cases r with
      | error e => rw [bind_error hx,bind_error hread.symm]
      | ok mode => rw [bind_ok hx,bind_ok hread.symm]

/-- The mode of a listed port is saved when it is first switched off, unless the connection
breaks. -/
theorem powerOff_saves (a : Around) (hc : s.conn = some fresh)
    (hsaved : getItem s.saved port = none) (hmode : s.switch.setting port = some mode) :
    Broken (powerOff a port s).2 ∨ getItem (powerOff a port s).2.saved port = some mode := by
  rw [powerOff_unsaved a hsaved]
  obtain ⟨hbroken,hstuck⟩ | hread := getPoeOut_fresh a.connects a.read hc hmode
  · left
    cases hx : getPoeOut a.connects a.read port s with
    | mk r t =>
      rw [hx] at hbroken hstuck
      cases r with
      | error e =>
        rw [bind_error hx]
        exact hbroken
      | ok m =>
        rw [bind_ok hx,saveAndSet_run]
        have ht := (onward_saved t (setItem port m t.saved)).stuck (hstuck m rfl)
        exact ((setPoe_later _ _ _ _ _ _).stuck ht).broken
  · right
    rw [bind_ok hread,saveAndSet_run,(setPoe_later _ _ _ _ _ _).saved,getItem_setItem,if_pos rfl]

lemma off_saves (hop : l.op = .off) (hclean : Clean w l) {mode : Text}
    (hsaved : getItem w.system.saved l.port = none)
    (hmode : w.system.switch.setting l.port = some mode) :
    (run l w.system).2.conn.isSome = true ∧
      (Broken (run l w.system).2 ∨ getItem (run l w.system).2.saved l.port = some mode) := by
  obtain ⟨hclear,hconnects,_⟩ := hclean
  have honward := run_onward l
  cases hc : w.system.conn with
  | some c =>
    refine ⟨(honward w.system).connected (hc ▸ rfl),?_⟩
    obtain rfl | ⟨_,hended⟩ := Conn.fresh_or_ended (by rwa [hc,all_some] at hclear)
    · rw [run,hop]
      exact powerOff_saves l.around hc hsaved hmode
    · exact .inl ((honward w.system).stuck ⟨c,hc,.inr hended⟩).broken
  | none =>
    have hfresh : run l w.system = run l {w.system with conn := some fresh} := by
      rw [run,hop]
      exact powerOff_connects (hconnects (hc ▸ rfl) hop) l.port hc
    rw [hfresh]
    refine ⟨(honward _).connected rfl,?_⟩
    rw [run,hop]
    exact powerOff_saves (s := ⟨w.system.switch,some fresh,w.system.saved⟩)
      l.around rfl hsaved hmode

lemma kept_of_ne (hinv : Inv w) (hclean : Clean w l) {p m : Text}
    (hp : l.port ≠ p) (hbefore : w.before p = some m) :
    Broken (run l w.system).2 ∨ getItem (run l w.system).2.saved p = some m := by
  rw [run_saved_of_ne l w.system hp]
  refine (hinv.kept p m hbefore).imp_left fun hbroken => ?_
  exact ((run_onward l w.system).stuck (hbroken.stuck hclean.1)).broken

lemma saved_of_ne (hinv : Inv w) {p : Text} (hp : l.port ≠ p)
    (h : (getItem (run l w.system).2.saved p).isSome = true) :
    (w.before p).isSome = true ∨ (run l w.system).2.switch.setting p = none := by
  rw [run_saved_of_ne l w.system hp] at h
  refine (hinv.saved p h).imp_right fun hnone => ?_
  have hlisted := (run_onward l w.system).listed p
  rwa [hnone,isSome_none,isSome_eq_false_iff,isNone_iff_eq_none] at hlisted

lemma off_before (hop : l.op = .off) :
    (step w l).before = if (w.before l.port).isNone then
      Function.update w.before l.port (w.system.switch.setting l.port) else w.before := by
  rw [step,hop]

lemma inv_off (hop : l.op = .off) (hinv : Inv w) (hclean : Clean w l) :
    Inv (step w l) := by
  have honward := run_onward l w.system
  have hbefore := off_before (w := w) hop
  cases hport : w.before l.port with
  | some mode =>
    have hsame : (step w l).before = w.before := by rw [hbefore,hport]; rfl
    refine ⟨?_,?_,?_,?_⟩
    · intro p m hp
      rw [hsame] at hp
      exact (honward.listed p).trans (hinv.listed p m hp)
    · intro p m hp
      rw [hsame] at hp
      exact honward.connected (hinv.connected p m hp)
    · intro p m hp
      rw [hsame] at hp
      by_cases hne : l.port = p
      · subst hne
        refine (hinv.kept _ m hp).imp (fun hbroken => ?_) fun hsaved => ?_
        · exact (honward.stuck (hbroken.stuck hclean.1)).broken
        · rw [step,run,hop]
          dsimp only
          rw [powerOff_run_saved l.around l.port hsaved,hsaved]
      · exact kept_of_ne hinv hclean hne hp
    · intro p hp
      rw [hsame]
      by_cases hne : l.port = p
      · subst hne
        exact .inl (hport ▸ rfl)
      · exact saved_of_ne hinv hne hp
  | none =>
    have hnew : (step w l).before =
        Function.update w.before l.port (w.system.switch.setting l.port) := by
      rw [hbefore,hport]; rfl
    have hself : (step w l).before l.port = w.system.switch.setting l.port := by
      rw [hnew,Function.update_self]
    have hother : ∀ p,l.port ≠ p → (step w l).before p = w.before p := by
      intro p hne
      rw [hnew,Function.update_of_ne (Ne.symm hne)]
    have hunsaved : ∀ m,w.system.switch.setting l.port = some m →
        getItem w.system.saved l.port = none := by
      intro m hm
      rw [← not_isSome_iff_eq_none]
      intro hsaved
      obtain h | h := hinv.saved l.port hsaved
      · rw [hport] at h
        cases h
      · rw [hm] at h
        cases h
    refine ⟨?_,?_,?_,?_⟩
    · intro p m hp
      refine (honward.listed p).trans ?_
      by_cases hne : l.port = p
      · subst hne
        rw [hself] at hp
        rw [hp,isSome_some]
      · rw [hother p hne] at hp
        exact hinv.listed p m hp
    · intro p m hp
      by_cases hne : l.port = p
      · subst hne
        rw [hself] at hp
        exact (off_saves hop hclean (hunsaved m hp) hp).1
      · rw [hother p hne] at hp
        exact honward.connected (hinv.connected p m hp)
    · intro p m hp
      by_cases hne : l.port = p
      · subst hne
        rw [hself] at hp
        exact (off_saves hop hclean (hunsaved m hp) hp).2
      · rw [hother p hne] at hp
        exact kept_of_ne hinv hclean hne hp
    · intro p hp
      by_cases hne : l.port = p
      · subst hne
        rw [hself]
        have hlisted := honward.listed l.port
        cases hset : w.system.switch.setting l.port with
        | some m => exact .inl rfl
        | none =>
          rw [hset,isSome_none,isSome_eq_false_iff,
            isNone_iff_eq_none] at hlisted
          exact .inr hlisted
      · rw [hother p hne]
        exact saved_of_ne hinv hne hp

lemma on_fails (hop : l.op = .on) (hinv : Inv w) (hclean : Clean w l)
    {mode : Text} (hbefore : w.before l.port = some mode) {e : PowerError} {s' : System}
    (hrun : run l w.system = (.error e,s')) : Broken s' := by
  have honward := run_onward l w.system
  rw [hrun] at honward
  obtain ⟨c,hc⟩ := isSome_iff_exists.mp (hinv.connected _ _ hbefore)
  have hclear : c.clear = true := by
    have h := hclean.1
    rwa [hc,all_some] at h
  obtain rfl | ⟨_,hended⟩ := Conn.fresh_or_ended hclear
  · rw [run,hop] at hrun
    dsimp only at hrun
    rw [powerOn_run] at hrun
    have hset := setPoe_fresh (s := ⟨w.system.switch,w.system.conn,delItem l.port w.system.saved⟩)
      l.around.connects l.around.find l.around.change
      (restoreMode ((getItem w.system.saved l.port).getD forcedOn)) hc (hinv.listed _ _ hbefore)
    rw [hrun] at hset
    refine hset.resolve_right ?_
    rintro ⟨t,ht⟩
    cases ht
  · exact (honward.stuck ⟨c,hc,.inr hended⟩).broken

lemma on_saved (hop : l.op = .on) (s : System) :
    getItem (run l s).2.saved l.port = none := by
  rw [run,hop]
  exact powerOn_saved l.around l.port s

lemma inv_on (hop : l.op = .on) (hinv : Inv w) (hclean : Clean w l) :
    Inv (step w l) := by
  have honward := run_onward l w.system
  have hunsaved := on_saved hop w.system
  have hother : ∀ p,l.port ≠ p → (step w l).before p = w.before p := by
    intro p hne
    rw [step,hop]
    cases (run l w.system).1 with
    | ok _ => exact Function.update_of_ne (Ne.symm hne) none w.before
    | error e => rfl
  have hself : ∀ m,(step w l).before l.port = some m → w.before l.port = some m ∧
      ∃ e s',run l w.system = (.error e,s') := by
    intro m hm
    rw [step,hop] at hm
    cases hx : run l w.system with
    | mk r s' =>
      rw [hx] at hm
      cases r with
      | ok _ =>
        have hnone : Function.update w.before l.port none l.port = some m := hm
        rw [Function.update_self] at hnone
        cases hnone
      | error e => exact ⟨hm,e,s',rfl⟩
  have hbefore : ∀ p m,(step w l).before p = some m → w.before p = some m := by
    intro p m hp
    by_cases hne : l.port = p
    · subst hne
      exact (hself m hp).1
    · exact (hother p hne).symm.trans hp
  refine ⟨?_,?_,?_,?_⟩
  · intro p m hp
    exact (honward.listed p).trans (hinv.listed p m (hbefore p m hp))
  · intro p m hp
    exact honward.connected (hinv.connected p m (hbefore p m hp))
  · intro p m hp
    by_cases hne : l.port = p
    · subst hne
      obtain ⟨hold,e,s',hrun⟩ := hself m hp
      left
      rw [step,hrun]
      exact on_fails hop hinv hclean hold hrun
    · exact kept_of_ne hinv hclean hne (hbefore p m hp)
  · intro p hp
    by_cases hne : l.port = p
    · subst hne
      have hnone : getItem (step w l).system.saved l.port = none := hunsaved
      rw [hnone] at hp
      cases hp
    · rw [hother p hne]
      exact saved_of_ne hinv hne hp

lemma inv_step (w : World) (l : Label) (hinv : Inv w) (hclean : Clean w l) : Inv (step w l) := by
  cases hop : l.op with
  | off => exact inv_off hop hinv hclean
  | on => exact inv_on hop hinv hclean

/-- Every `power_on` that works restores the mode, in every run whose steps are clean. -/
theorem poe_mode_restored (sw : Switch) (ls : List Label)
    (h : Runs.Along step Clean (start sw) ls) : Runs.Along step Restored (start sw) ls :=
  h.of_invariant inv_step (fun _ _ => restored) (inv_start sw)

def oneSwitch : Switch where
  ports := [⟨['*','1'],"ether1".toList,autoOn⟩]
  ids_ne_nil := by decide

def answers : Behaviour := ⟨none,0,false,false⟩

def refuses : Behaviour := ⟨some [],0,false,false⟩

def calls (op : Op) (change : Behaviour) : Label :=
  ⟨op,"ether1".toList,⟨true,answers,answers,change⟩⟩

theorem off_on_restored : Runs.Along step Restored (start oneSwitch)
    [calls .off answers,calls .on answers] :=
  poe_mode_restored oneSwitch _ (by decide +kernel)

/-- After a `power_on` that was refused the saved mode is gone: the next one fails on the answer
that was left over, and the one after it sets another mode. -/
theorem refused_on_loses_mode :
    let before := [calls .off answers,calls .on refuses,calls .on answers]
    let w := before.foldl step (start oneSwitch)
    w.before "ether1".toList = some autoOn ∧
      (run (calls .on answers) w.system).1 = .ok () ∧
      (run (calls .on answers) w.system).2.switch.setting "ether1".toList = some forcedOn ∧
      ¬Runs.Along step Restored (start oneSwitch) (before++[calls .on answers]) := by
  intro before w
  have hbefore : w.before "ether1".toList = some autoOn := by decide +kernel
  have hok : (run (calls .on answers) w.system).1 = .ok () := by decide +kernel
  have hset : (run (calls .on answers) w.system).2.switch.setting "ether1".toList =
      some forcedOn := by
    decide +kernel
  refine ⟨hbefore,hok,hset,?_⟩
  rintro ⟨_,_,_,h,_⟩
  have hrestored : _ = some (restoreMode autoOn) := h rfl _ (Prod.ext hok rfl) autoOn hbefore
  exact absurd (hset.symm.trans hrestored) (by decide +kernel)

end Restoring

end Defib.PoePorts
