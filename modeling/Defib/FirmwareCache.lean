import Defib.Actions
import Defib.PyText
import Defib.Runs
import Defib.Words
import Mathlib.Logic.Function.Basic

/-!
# The cache of downloaded firmware

`download_firmware` looks for a published image in the cache, downloads it when the copy there
is missing or out of date, and puts the old copy back when the download fails. Beside each
image a sidecar holds the validators of its response, and `get_cached_path` trusts them rather
than the image. Whatever the server and the file system do is an input: every step may raise,
and a write that raises may have changed the file.
-/
namespace Defib.FirmwareCache
open Actions Words

abbrev Text := List Char
abbrev Name := Text

/-- Exceptions by the classes the code tells apart; an interrupt is none of `Exception`. -/
inductive Exn where
  | connectionError | osError | valueError | typeError | otherException | interrupt
  deriving DecidableEq, Repr

def Exn.isException : Exn → Bool
  | interrupt => false
  | _ => true

def Exn.isOsError : Exn → Bool
  | connectionError | osError => true
  | _ => false

def raiseIf : Option Exn → Except Exn Unit
  | none => .ok ()
  | some e => .error e

section Validators

/-- The headers that are read, as Latin-1. -/
structure Headers where
  contentLength : Option Text
  etag : Option Text
  lastModified : Option Text
  deriving DecidableEq, Repr

structure Validators where
  etag : Option Text
  lastModified : Option Text
  size : Option ℕ
  deriving DecidableEq, Repr

/-- `str.isdigit` in Latin-1, where it holds of superscripts too. -/
def isDigit (c : Char) : Bool := c.isDigit || c = '²' || c = '³' || c = '¹'

/-- `int(size) if size and str(size).isdigit() else None`; `int` refuses the superscripts. -/
def parseSize (size : Option Text) : Except Exn (Option ℕ) :=
  match size with
  | none => .ok none
  | some ds =>
    if ds ≠ [] ∧ ds.all isDigit then
      if ds.all Char.isDigit then .ok (some (PyText.decimalValue PyText.asciiTable ds))
      else .error .valueError
    else .ok none

def validators (headers : Headers) : Except Exn Validators :=
  (parseSize headers.contentLength).map fun size => ⟨headers.etag,headers.lastModified,size⟩

/-- A value in a sidecar, as far as it is looked at. -/
inductive Value where
  | falsy
  | text (s : Text)
  | other
  deriving DecidableEq, Repr

/-- The content of a sidecar: no JSON object, or one with the two validators. -/
inductive Sidecar where
  | unreadable
  | dict (etag lastModified : Value)
  deriving DecidableEq, Repr

def Value.ofOption : Option Text → Value
  | none => falsy
  | some s => text s

def Sidecar.ofValidators (v : Validators) : Sidecar :=
  dict (Value.ofOption v.etag) (Value.ofOption v.lastModified)

end Validators

/-- What the code does with times: how it reads a date of the server, whether that is later than
the time of a file, and what becomes of the time of a file that goes through `st_mtime` and
`os.utime`, which count seconds in floating point. -/
structure Clock (T : Type) where
  parseDate : Text → Except Exn T
  later : T → T → Bool
  carried : T → T

structure File (T : Type) where
  data : List Byte
  mtime : T
  deriving DecidableEq, Repr

/-- The cache directory: images, and the sidecar of each. -/
structure Cache (T : Type) where
  files : Name → Option (File T)
  sidecars : Name → Option Sidecar

/-- What a chip name and a flash type resolve to. -/
structure Chip where
  assetName : Option Name
  legacyCacheName : Name
  usesPerFlashTypeUboot : Bool
  /-- a board variant of a chip with dedicated U-Boot assets -/
  classicVariant : Bool
  /-- flash type NOR, and not a board without a universal image -/
  universalFallback : Bool
  deriving DecidableEq, Repr

section Lookups
variable {T : Type} (K : Clock T)

/-- What happens while one candidate is looked at: exceptions of the steps, and the answer to
the HEAD request. -/
structure Lookup where
  find : Option Exn
  read : Option Exn
  head : Except Exn Headers
  readMeta : Option Exn
  stat : Option Exn
  statTime : Option Exn

def nonEmpty (f : Option (File T)) : Option (File T) := f.filter fun f => 0 < f.data.length

def cachedFile (s : Cache T) (name : Name) : Option (File T) := nonEmpty (s.files name)

/-- The bytes of the DMC timing values in the SPL. -/
def hasHi3536eDdrConfig (data : List Byte) : Bool :=
  let spl := data.take 0x5000
  [[0x12,0x1A,0x42,0x34],[0x8D,0xB4,0x44,0x41]].all fun v => spl.tails.any (v.isPrefixOf ·)

/-- The names in `_CACHE_CHECKS`. -/
def checked (name : Name) : Bool := name = "u-boot-hi3536dv100-universal.bin".toList

def isStale (name : Name) (f : File T) : Bool := checked name && !hasHi3536eDdrConfig f.data

def remoteValidators (head : Except Exn Headers) : Except Exn (Option Validators) :=
  match head.bind validators with
  | .ok v => .ok (some v)
  | .error e => if e.isException then .ok none else .error e

def readMeta (fault : Option Exn) (sidecar : Option Sidecar) :
    Except Exn (Option (Value × Value)) :=
  match fault with
  | some e => if e.isOsError || e = .valueError then .ok none else .error e
  | none =>
    match sidecar with
    | some (.dict etag lastModified) => .ok (some (etag,lastModified))
    | _ => .ok none

/-- One key of the loop in `_is_current`: both sides must have a value. -/
def sameValue (remote : Option Text) (known : Value) : Option Bool :=
  match remote,known with
  | some r,.text m => if r = [] ∨ m = [] then none else some (r = m)
  | some r,.other => if r = [] then none else some false
  | _,_ => none

/-- The rest of `_is_current`, by size and date. -/
def isCurrentWithoutMeta (look : Lookup) (f : File T) (remote : Validators) : Except Exn Bool := do
  if let some size := remote.size then
    raiseIf look.stat
    if size ≠ f.data.length then
      return false
  match remote.lastModified with
  | none => return true
  | some modified =>
    match (K.parseDate modified).bind fun t => (raiseIf look.statTime).map fun _ => t with
    | .ok t => return !K.later t f.mtime
    | .error e => if e = .typeError ∨ e = .valueError then return true else throw e

def isCurrent (look : Lookup) (sidecar : Option Sidecar) (f : File T)
    (remote : Option Validators) : Except Exn Bool :=
  match remote with
  | none => .ok true
  | some v => do
    let known ← readMeta look.readMeta sidecar
    match known.bind fun m => (sameValue v.etag m.1).or (sameValue v.lastModified m.2) with
    | some same => return same
    | none => isCurrentWithoutMeta K look f v

/-- Whether an entry is used: only the published asset itself has a release to match. -/
def released (c : Chip) (checkRelease : Bool) (s : Cache T) (look : Lookup) (name : Name)
    (f : File T) : Except Exn (Option Name) :=
  if checkRelease ∧ c.assetName = some name then do
    let remote ← remoteValidators look.head
    let current ← isCurrent K look (s.sidecars name) f remote
    return if current then some name else none
  else .ok (some name)

/-- One round of the loop in `get_cached_path`: `none` goes on to the next candidate. -/
def lookAt (c : Chip) (checkRelease : Bool) (s : Cache T) (look : Lookup) (name : Name) :
    Except Exn (Option (Option Name)) := do
  raiseIf look.find
  match cachedFile s name with
  | none => return none
  | some f =>
    raiseIf (if checked name then look.read else none)
    if isStale name f then
      return none
    let found ← released K c checkRelease s look name f
    return some found

def lookThrough (c : Chip) (checkRelease : Bool) (s : Cache T) (looks : ℕ → Lookup) :
    List Name → Except Exn (Option Name)
  | [] => .ok none
  | name::names => do
    match ← lookAt K c checkRelease s (looks 0) name with
    | some found => return found
    | none => lookThrough c checkRelease s (fun k => looks (k+1)) names

def candidates (c : Chip) : List Name :=
  c.assetName.toList++
    if !c.usesPerFlashTypeUboot && !c.classicVariant then [c.legacyCacheName] else []

def getCachedPath (c : Chip) (checkRelease : Bool) (looks : ℕ → Lookup) (s : Cache T) :
    Except Exn (Option Name) :=
  lookThrough K c checkRelease s looks (candidates c)

end Lookups

section Download
variable {T : Type}

/-- The server's side of a download; after the last read comes an empty one. An exception of
`on_progress` is one of the next read. -/
structure Response where
  urlopen : Option Exn
  headers : Headers
  reads : List (Except Exn (List Byte))
  close : Option Exn

/-- A write of a file: the time it is made at, and the exception that ends it with the number
of bytes that are then in the file (`none` if it was not opened). -/
structure Writing (T : Type) where
  now : T
  fault : Option (Exn × Option ℕ)

/-- What happens during a call of `download_firmware`. -/
structure Env (T : Type) where
  lookups : ℕ → Lookup
  cacheDir : Option Exn
  find : Option Exn
  readStale : Option Exn
  statStale : Option Exn
  response : Response
  write : Writing T
  /-- an exception, with what it leaves in the sidecar -/
  writeMeta : Option (Exn × Option Sidecar)
  log : Option Exn
  destExists : Option Exn
  /-- an exception, and whether the file is gone -/
  unlink : Option (Exn × Bool)
  restore : Writing T
  /-- an exception, and whether the time is set -/
  utime : Option (Exn × Bool)
  warn : Option Exn
  findLegacy : Option Exn

def Cache.setFile (s : Cache T) (name : Name) (f : Option (File T)) : Cache T :=
  { s with files := Function.update s.files name f }

def Cache.setSidecar (s : Cache T) (name : Name) (c : Sidecar) : Cache T :=
  { s with sidecars := Function.update s.sidecars name (some c) }

def writeBytes (name : Name) (data : List Byte) (w : Writing T) : Act Exn (Cache T) Unit := fun s =>
  match w.fault with
  | none => (.ok (),s.setFile name (some ⟨data,w.now⟩))
  | some (e,none) => (.error e,s)
  | some (e,some k) => (.error e,s.setFile name (some ⟨data.take k,w.now⟩))

def writeMeta (name : Name) (v : Validators) (fault : Option (Exn × Option Sidecar)) :
    Act Exn (Cache T) Unit := fun s =>
  match fault with
  | none => (.ok (),s.setSidecar name (Sidecar.ofValidators v))
  | some (e,left) => (if e.isOsError then .ok () else .error e,
      (left.map (s.setSidecar name)).getD s)

def unlink (name : Name) (fault : Option (Exn × Bool)) : Act Exn (Cache T) Unit := fun s =>
  match fault with
  | none => (.ok (),s.setFile name none)
  | some (e,gone) => (.error e,if gone then s.setFile name none else s)

def utime (name : Name) (t : T) (fault : Option (Exn × Bool)) : Act Exn (Cache T) Unit := fun s =>
  let s' := s.setFile name ((s.files name).map fun f => ⟨f.data,t⟩)
  match fault with
  | none => (.ok (),s')
  | some (e,set) => (.error e,if set then s' else s)

/-- The loop over `resp.read`. -/
def readAll : List (Except Exn (List Byte)) → Except Exn (List Byte)
  | [] => .ok []
  | .error e::_ => .error e
  | .ok []::_ => .ok []
  | .ok (b::chunk)::reads => (readAll reads).map (b::chunk++·)

def fetch (r : Response) : Except Exn (Validators × List Byte) := do
  raiseIf r.urlopen
  let v ← validators r.headers
  let data ← readAll r.reads
  raiseIf r.close
  if data.length < 1024 then
    throw .connectionError
  return (v,data)

def store (name : Name) (env : Env T) (v : Validators) (data : List Byte) :
    Act Exn (Cache T) Name := do
  writeBytes name data env.write
  writeMeta name v env.writeMeta
  given (raiseIf env.log)
  return name

def removePartial (name : Name) (env : Env T) : Act Exn (Cache T) Unit := do
  given (raiseIf env.destExists)
  let s ← get
  if (s.files name).isSome then
    unlink name env.unlink

def download (name : Name) (env : Env T) : Act Exn (Cache T) Name :=
  attempt (do
    let (v,data) ← given (fetch env.response)
    store name env v data) fun e =>
  if e.isException then do
    removePartial name env
    throw .connectionError
  else throw e

variable (K : Clock T)

def restore (name : Name) (f : File T) (env : Env T) : Act Exn (Cache T) Unit := do
  writeBytes name f.data env.restore
  utime name (K.carried f.mtime) env.utime

/-- What follows a download that failed with a `ConnectionError`. -/
def fallBack (c : Chip) (name : Name) (stale : Option (File T)) (env : Env T) :
    Act Exn (Cache T) Name :=
  match stale with
  | some f => do
    restore K name f env
    given (raiseIf env.warn)
    return name
  | none =>
    if c.usesPerFlashTypeUboot && c.universalFallback then do
      given (raiseIf env.findLegacy)
      let s ← get
      match cachedFile s c.legacyCacheName with
      | some _ =>
        given (raiseIf env.warn)
        return c.legacyCacheName
      | none => throw .connectionError
    else throw .connectionError

/-- The part of `download_firmware` after the cache has been found wanting. -/
def refresh (c : Chip) (name : Name) (env : Env T) : Act Exn (Cache T) Name := do
  given (raiseIf env.cacheDir)
  given (raiseIf env.find)
  let s ← get
  let stale := cachedFile s name
  if stale.isSome then
    given (raiseIf env.readStale)
    given (raiseIf env.statStale)
  attempt (download name env) fun e =>
    if e = .connectionError then fallBack K c name stale env else throw e

def downloadFirmware (c : Chip) (env : Env T) : Act Exn (Cache T) Name := do
  let s ← get
  match ← given (getCachedPath K c true env.lookups s) with
  | some path => return path
  | none =>
    match c.assetName with
    | none => throw .valueError
    | some name => refresh K c name env

end Download

section Outcomes
variable {T : Type} {K : Clock T} {c : Chip} {env : Env T} {name : Name} {s : Cache T}

lemma fetch_eq_ok {r : Response} {v : Validators} {data : List Byte}
    (h : fetch r = .ok (v,data)) :
    validators r.headers = .ok v ∧ readAll r.reads = .ok data ∧ 1024 ≤ data.length := by
  obtain ⟨_,-,h⟩ := except_bind_eq_ok h
  obtain ⟨v',hv,h⟩ := except_bind_eq_ok h
  obtain ⟨data',hdata,h⟩ := except_bind_eq_ok h
  obtain ⟨_,-,h⟩ := except_bind_eq_ok h
  split at h
  next => cases h
  next hlen =>
    cases h
    exact ⟨hv,hdata,Nat.le_of_not_lt hlen⟩

def SameFiles (s t : Cache T) : Prop := t.files = s.files

lemma SameFiles.trans (s t u : Cache T) (hst : SameFiles s t) (htu : SameFiles t u) :
    SameFiles s u := Eq.trans htu hst

lemma leads_given {A : Type} (x : Except Exn A) : Leads SameFiles (given x : Act Exn (Cache T) A) :=
  fun _ => rfl

lemma leads_writeMeta (name : Name) (v : Validators) (fault : Option (Exn × Option Sidecar)) :
    Leads SameFiles (writeMeta name v fault : Act Exn (Cache T) Unit) := by
  intro s
  cases fault with
  | none => rfl
  | some x =>
    obtain ⟨e,left⟩ := x
    cases left with
    | none => rfl
    | some c => rfl

lemma store_files (name : Name) (env : Env T) (v : Validators) (data : List Byte) (s : Cache T)
    (hwrite : ∀ k,env.write.fault ≠ some (.interrupt,some k)) :
    ∃ g,(store name env v data s).2.files = Function.update s.files name g ∧
      (∀ p,(store name env v data s).1 = .ok p → p = name ∧ g = some ⟨data,env.write.now⟩) ∧
      ((store name env v data s).1 = .error .interrupt →
        g = s.files name ∨ g = some ⟨data,env.write.now⟩) := by
  cases hfault : env.write.fault with
  | some x =>
    obtain ⟨e,left⟩ := x
    cases left with
    | none =>
      have hw : writeBytes name data env.write s = (.error e,s) := by rw [writeBytes,hfault]
      rw [store,bind_error hw]
      exact ⟨s.files name,(Function.update_eq_self name s.files).symm,nofun,
        fun _ => .inl rfl⟩
    | some k =>
      have hw : writeBytes name data env.write s =
          (.error e,s.setFile name (some ⟨data.take k,env.write.now⟩)) := by
        rw [writeBytes,hfault]
      rw [store,bind_error hw]
      refine ⟨_,rfl,nofun,fun he => ?_⟩
      obtain rfl := Except.error.inj he
      exact absurd hfault (hwrite k)
  | none =>
    have hw : writeBytes name data env.write s =
        (.ok (),s.setFile name (some ⟨data,env.write.now⟩)) := by
      rw [writeBytes,hfault]
    rw [store,bind_ok hw]
    have hrest : Leads SameFiles (do
        writeMeta name v env.writeMeta
        given (raiseIf env.log)
        return name : Act Exn (Cache T) Name) :=
      (leads_writeMeta name v env.writeMeta).bind SameFiles.trans fun _ =>
        (leads_given _).bind SameFiles.trans fun _ =>
          Leads.pure (R := SameFiles) (fun _ => rfl) name
    refine ⟨_,hrest _,fun p hp => ⟨?_,rfl⟩,fun _ => .inr rfl⟩
    obtain ⟨_,_,_,hp⟩ := bind_eq_ok (Prod.ext hp rfl)
    obtain ⟨_,_,_,hp⟩ := bind_eq_ok hp
    exact (Except.ok.inj (congrArg Prod.fst hp)).symm

lemma removePartial_files (name : Name) (hexists : env.destExists = none)
    (hunlink : env.unlink = none)
    (s : Cache T) : ∃ t,removePartial name env s = (.ok (),t) ∧
      t.files = Function.update s.files name none := by
  have hgiven : (given (raiseIf env.destExists) : Act Exn (Cache T) Unit) s = (.ok (),s) := by
    rw [hexists]
    rfl
  rw [removePartial,bind_ok hgiven,get_bind]
  cases hfile : s.files name with
  | none =>
    refine ⟨s,?_,?_⟩
    · rw [if_neg (by simp)]
      rfl
    · rw [← hfile,Function.update_eq_self]
  | some f =>
    refine ⟨s.setFile name none,?_,rfl⟩
    rw [Option.isSome_some,if_pos rfl,hunlink]
    rfl

/-- How `_download` can end when the clean-up works. -/
inductive Downloaded (name : Name) (env : Env T) (old : Option (File T)) :
    Except Exn Name → Option (File T) → Prop
  | stored {v : Validators} {data : List Byte} : fetch env.response = .ok (v,data) →
      Downloaded name env old (.ok name) (some ⟨data,env.write.now⟩)
  | removed : Downloaded name env old (.error .connectionError) none
  | untouched : Downloaded name env old (.error .interrupt) old
  | interrupted {v : Validators} {data : List Byte} : fetch env.response = .ok (v,data) →
      Downloaded name env old (.error .interrupt) (some ⟨data,env.write.now⟩)

lemma download_spec (name : Name) (hwrite : ∀ k,env.write.fault ≠ some (.interrupt,some k))
    (hexists : env.destExists = none) (hunlink : env.unlink = none) (s : Cache T) :
    ∃ g,(download name env s).2.files = Function.update s.files name g ∧
      Downloaded name env (s.files name) (download name env s).1 g := by
  have hclean : ∀ {e : Exn},e ≠ .interrupt → ∀ t : Cache T,∃ u,
      (if e.isException then do
          removePartial name env
          throw .connectionError
        else throw e : Act Exn (Cache T) Name) t = (.error .connectionError,u) ∧
        u.files = Function.update t.files name none := by
    intro e he t
    obtain ⟨u,hu,hfiles⟩ := removePartial_files name hexists hunlink t
    have hexc : e.isException = true := by
      cases e with
      | interrupt => exact absurd rfl he
      | _ => rfl
    refine ⟨u,?_,hfiles⟩
    rw [if_pos hexc,bind_ok hu]
    rfl
  rw [download]
  cases hfetch : fetch env.response with
  | error e =>
    have hx : (do
        let (v,data) ← given (.error e)
        store name env v data : Act Exn (Cache T) Name) s = (.error e,s) := given_error_bind e
    rw [attempt_error hx]
    by_cases he : e = .interrupt
    · subst he
      exact ⟨s.files name,(Function.update_eq_self name s.files).symm,.untouched⟩
    · obtain ⟨u,hu,hfiles⟩ := hclean he s
      rw [hu]
      exact ⟨none,hfiles,.removed⟩
  | ok x =>
    obtain ⟨v,data⟩ := x
    obtain ⟨g,hg,hok,hint⟩ := store_files name env v data s hwrite
    have hx : (do
        let (v,data) ← given (.ok (v,data))
        store name env v data : Act Exn (Cache T) Name) s = store name env v data s :=
      given_ok_bind (v,data)
    generalize store name env v data s = out at *
    obtain ⟨r,t⟩ := out
    dsimp only at hg hok hint
    cases r with
    | ok p =>
      obtain ⟨rfl,rfl⟩ := hok p rfl
      rw [attempt_ok hx]
      exact ⟨_,hg,.stored hfetch⟩
    | error e =>
      rw [attempt_error hx]
      by_cases he : e = .interrupt
      · subst he
        rcases hint rfl with rfl | rfl
        · exact ⟨_,hg,.untouched⟩
        · exact ⟨_,hg,.interrupted hfetch⟩
      · obtain ⟨u,hu,hfiles⟩ := hclean he t
        rw [hu]
        refine ⟨none,?_,.removed⟩
        rw [hfiles,hg,Function.update_idem]

lemma fallBack_files {stale : Option (File T)} (hrestore : env.restore.fault = none)
    (hutime : env.utime = none) (s : Cache T) :
    (fallBack K c name stale env s).2.files =
      match stale with
      | some f => Function.update s.files name (some ⟨f.data,K.carried f.mtime⟩)
      | none => s.files := by
  cases stale with
  | some f =>
    have hw : writeBytes name f.data env.restore s =
        (.ok (),s.setFile name (some ⟨f.data,env.restore.now⟩)) := by
      rw [writeBytes,hrestore]
    have hu : restore K name f env s =
        (.ok (),s.setFile name (some ⟨f.data,K.carried f.mtime⟩)) := by
      rw [restore,bind_ok hw,hutime]
      simp only [utime]
      simp only [Cache.setFile,Function.update_self,Function.update_idem,Option.map_some]
    have hrest : Leads SameFiles (do
        given (raiseIf env.warn)
        return name : Act Exn (Cache T) Name) :=
      (leads_given _).bind SameFiles.trans fun _ => Leads.pure (R := SameFiles) (fun _ => rfl) name
    rw [fallBack,bind_ok hu]
    exact hrest _
  | none =>
    have hthrow : Leads SameFiles (throw .connectionError : Act Exn (Cache T) Name) :=
      Leads.throw (R := SameFiles) (fun _ => rfl) _
    have hwarn : Leads SameFiles (do
        given (raiseIf env.warn)
        return c.legacyCacheName : Act Exn (Cache T) Name) :=
      (leads_given _).bind SameFiles.trans fun _ => Leads.pure (R := SameFiles) (fun _ => rfl) _
    rw [fallBack]
    split
    · refine (leads_given _).bind SameFiles.trans (fun _ t => ?_) s
      rw [get_bind]
      cases cachedFile t c.legacyCacheName with
      | some f => exact hwarn t
      | none => exact hthrow t
    · exact hthrow s

/-- The image is the complete body of the response. -/
def Whole (r : Response) (f : File T) : Prop :=
  ∃ v,fetch r = .ok (v,f.data) ∧ ∀ n,v.size = some n → f.data.length = n

/-- The file is as it was; an empty one, which is not an entry, may also be gone. -/
def Kept (before after : Option (File T)) : Prop :=
  after = before ∨ nonEmpty before = none ∧ after = none

def Settled (env : Env T) (before after : Option (File T)) : Prop :=
  Kept before after ∨ ∃ f,after = some f ∧ Whole env.response f

/-- What the server and the file system must keep to. -/
structure Sound (K : Clock T) (c : Chip) (env : Env T) (s : Cache T) : Prop where
  /-- a body that is read to its end and is not too small has the announced length -/
  complete : ∀ n data,parseSize env.response.headers.contentLength = .ok (some n) →
    readAll env.response.reads = .ok data → 1024 ≤ data.length → data.length = n
  /-- nothing but an `Exception` stops a write of the image -/
  write : ∀ k,env.write.fault ≠ some (.interrupt,some k)
  /-- the clean-up and the way back work -/
  destExists : env.destExists = none
  unlink : env.unlink = none
  restore : env.restore.fault = none
  utime : env.utime = none
  /-- the time of the old image survives `st_mtime` and `os.utime` -/
  times : ∀ name f,c.assetName = some name → cachedFile s name = some f →
    K.carried f.mtime = f.mtime

lemma nonEmpty_eq_some {o : Option (File T)} {f : File T} (h : nonEmpty o = some f) : o = some f :=
  (Option.filter_eq_some_iff.mp h).1

lemma whole_of_fetch (h : Sound K c env s) {v : Validators} {data : List Byte} (t : T)
    (hfetch : fetch env.response = .ok (v,data)) : Whole env.response ⟨data,t⟩ := by
  refine ⟨v,hfetch,fun n hn => ?_⟩
  obtain ⟨hv,hdata,hlen⟩ := fetch_eq_ok hfetch
  apply h.complete n data ?_ hdata hlen
  rw [validators] at hv
  cases hsize : parseSize env.response.headers.contentLength with
  | error e =>
    rw [hsize] at hv
    cases hv
  | ok size =>
    rw [hsize] at hv
    cases hv
    exact congrArg Except.ok hn

lemma refresh_files (h : Sound K c env s) (hname : c.assetName = some name) :
    ∃ g,(refresh K c name env s).2.files = Function.update s.files name g ∧
      Settled env (s.files name) g := by
  have hkept : ∀ g,g = s.files name → Settled env (s.files name) g := fun g hg => .inl (.inl hg)
  -- an exception before the download changes nothing
  have hraised : ∀ {o : Option Exn} {x : Act Exn (Cache T) Name},
      (∃ g,(x s).2.files = Function.update s.files name g ∧ Settled env (s.files name) g) →
      ∃ g,((given (raiseIf o) >>= fun _ => x) s).2.files = Function.update s.files name g ∧
        Settled env (s.files name) g := by
    intro o x hx
    cases o with
    | none => exact hx
    | some e => exact ⟨s.files name,(Function.update_eq_self name s.files).symm,hkept _ rfl⟩
  have hmain : ∃ g,(attempt (download name env) (fun e =>
      if e = .connectionError then fallBack K c name (cachedFile s name) env
        else throw e) s).2.files =
        Function.update s.files name g ∧ Settled env (s.files name) g := by
    obtain ⟨g,hg,hend⟩ := download_spec name h.write h.destExists h.unlink s
    cases hd : download name env s with
    | mk r t =>
      rw [hd] at hg hend
      dsimp only at hg hend
      cases hend with
      | stored hfetch =>
        rw [attempt_ok hd]
        exact ⟨_,hg,.inr ⟨_,rfl,whole_of_fetch h _ hfetch⟩⟩
      | untouched =>
        rw [attempt_error hd]
        exact ⟨_,hg,hkept _ rfl⟩
      | interrupted hfetch =>
        rw [attempt_error hd]
        exact ⟨_,hg,.inr ⟨_,rfl,whole_of_fetch h _ hfetch⟩⟩
      | removed =>
        rw [attempt_error hd,if_pos rfl,fallBack_files h.restore h.utime]
        cases hold : cachedFile s name with
        | some f =>
          have hfile : s.files name = some f := nonEmpty_eq_some hold
          refine ⟨some f,?_,hkept _ hfile.symm⟩
          dsimp only
          rw [h.times name f hname hold,hg,Function.update_idem]
        | none => exact ⟨none,hg,.inl (.inr ⟨hold,rfl⟩)⟩
  rw [refresh]
  refine hraised (hraised ?_)
  rw [get_bind]
  dsimp only
  split
  · exact hraised (hraised hmain)
  · exact hmain

lemma downloadFirmware_files (h : Sound K c env s) (path : Name) :
    ∃ g,(downloadFirmware K c env s).2.files path = g ∧
      (Kept (s.files path) g ∨
        c.assetName = some path ∧ ∃ f,g = some f ∧ Whole env.response f) := by
  have hsame : Kept (s.files path) (s.files path) := .inl rfl
  rw [downloadFirmware,get_bind]
  cases hcached : getCachedPath K c true env.lookups s with
  | error e =>
    rw [given_error_bind]
    exact ⟨_,rfl,.inl hsame⟩
  | ok found =>
    rw [given_ok_bind]
    cases found with
    | some p => exact ⟨_,rfl,.inl hsame⟩
    | none =>
      cases hname : c.assetName with
      | none => exact ⟨_,rfl,.inl hsame⟩
      | some name =>
        obtain ⟨g,hg,hsettled⟩ := refresh_files h hname
        dsimp only
        rw [hg]
        by_cases hp : path = name
        · subst hp
          refine ⟨g,Function.update_self _ _ _,?_⟩
          exact hsettled.imp_right fun hw => ⟨rfl,hw⟩
        · exact ⟨_,Function.update_of_ne hp _ _,.inl hsame⟩

end Outcomes

section Histories
variable {T : Type} (K : Clock T)

/-- A call of `download_firmware` with what happens during it. -/
structure Call (T : Type) where
  chip : Chip
  env : Env T

def step (s : Cache T) (l : Call T) : Cache T := (downloadFirmware K l.chip l.env s).2

/-- What a call is to leave: the image is the complete new one or what it was, and so is the
image that is returned. -/
structure Intact (s : Cache T) (l : Call T) : Prop where
  entry : ∀ name,l.chip.assetName = some name →
    Settled l.env (s.files name) ((step K s l).files name)
  returned : ∀ path,(downloadFirmware K l.chip l.env s).1 = .ok path →
    Kept (s.files path) ((step K s l).files path) ∨ l.chip.assetName = some path ∧
      ∃ f,(step K s l).files path = some f ∧ Whole l.env.response f

variable {K} {s : Cache T}

lemma intact_of_sound {l : Call T} (h : Sound K l.chip l.env s) : Intact K s l := by
  have hpath : ∀ path,Kept (s.files path) ((step K s l).files path) ∨
      l.chip.assetName = some path ∧
        ∃ f,(step K s l).files path = some f ∧ Whole l.env.response f := by
    intro path
    obtain ⟨g,rfl,hg⟩ := downloadFirmware_files h path
    exact hg
  exact ⟨fun name _ => (hpath name).imp_right And.right,fun path _ => hpath path⟩

lemma nonEmpty_of_whole {r : Response} {f : File T} (h : Whole r f) :
    nonEmpty (some f) = some f := by
  obtain ⟨v,hfetch,-⟩ := h
  have hlen := (fetch_eq_ok hfetch).2.2
  rw [nonEmpty,Option.filter_some,if_pos (decide_eq_true (by omega))]

lemma Kept.trans {a b c : Option (File T)} (hab : Kept a b) (hbc : Kept b c) : Kept a c := by
  rcases hbc with rfl | ⟨hb,rfl⟩
  · exact hab
  · rcases hab with rfl | ⟨ha,rfl⟩
    · exact .inr ⟨hb,rfl⟩
    · exact .inr ⟨ha,rfl⟩

lemma origin {ls : List (Call T)}
    (h : Runs.Along (step K) (fun s l => Sound K l.chip l.env s) s ls) (path : Name) :
    Kept (s.files path) ((ls.foldl (step K) s).files path) ∨
      ∃ l ∈ ls,l.chip.assetName = some path ∧
        ∃ f,(ls.foldl (step K) s).files path = some f ∧ Whole l.env.response f := by
  induction ls generalizing s with
  | nil => exact .inl (.inl rfl)
  | cons l ls ih =>
    obtain ⟨hsound,hrest⟩ := h
    rw [List.foldl_cons]
    rcases ih hrest with hkept | ⟨l',hl',hw⟩
    · obtain ⟨g,hg,hfirst⟩ := downloadFirmware_files hsound path
      rw [show (step K s l).files path = g from hg] at hkept
      rcases hfirst with hfirst | ⟨hname,f,rfl,hw⟩
      · exact .inl (hfirst.trans hkept)
      · rcases hkept with hsame | ⟨hnone,-⟩
        · exact .inr ⟨l,List.mem_cons_self,hname,f,hsame,hw⟩
        · rw [nonEmpty_of_whole hw] at hnone
          cases hnone
    · exact .inr ⟨l',List.mem_cons_of_mem l hl',hw⟩

variable {checkRelease : Bool}

lemma released_eq_some {c : Chip} {look : Lookup}
    {name path : Name} {f : File T}
    (h : released K c checkRelease s look name f = .ok (some path)) :
    path = name := by
  rw [released] at h
  split at h
  · obtain ⟨remote,-,h⟩ := except_bind_eq_ok h
    obtain ⟨current,-,h⟩ := except_bind_eq_ok h
    cases current with
    | true => exact (Option.some.inj (Except.ok.inj h)).symm
    | false => cases h
  · exact (Option.some.inj (Except.ok.inj h)).symm

lemma lookAt_eq_some {c : Chip} {look : Lookup}
    {name path : Name} (h : lookAt K c checkRelease s look name = .ok (some (some path))) :
    ∃ f,cachedFile s path = some f := by
  obtain ⟨_,-,h⟩ := except_bind_eq_ok h
  cases hfile : cachedFile s name with
  | none =>
    rw [hfile] at h
    cases h
  | some f =>
    rw [hfile] at h
    obtain ⟨_,-,h⟩ := except_bind_eq_ok h
    split at h
    · cases h
    · obtain ⟨found,hfound,h⟩ := except_bind_eq_ok h
      cases h
      rw [released_eq_some hfound]
      exact ⟨f,hfile⟩

lemma lookThrough_eq_some {c : Chip} {looks : ℕ → Lookup} {names : List Name} {path : Name}
    (h : lookThrough K c checkRelease s looks names = .ok (some path)) :
    ∃ f,cachedFile s path = some f := by
  induction names generalizing looks with
  | nil => cases h
  | cons name names ih =>
    obtain ⟨found,hfound,h⟩ := except_bind_eq_ok h
    cases found with
    | none => exact ih h
    | some found =>
      cases h
      exact lookAt_eq_some hfound

/-- After calls that all meet the condition every image is the one that was there before or a
complete download, and so is every image the cache is asked for. -/
theorem cache_intact (K : Clock T) (s : Cache T) (ls : List (Call T))
    (h : Runs.Along (step K) (fun s l => Sound K l.chip l.env s) s ls) :
    Runs.Along (step K) (Intact K) s ls ∧
      ∀ c checkRelease looks path,
        getCachedPath K c checkRelease looks (ls.foldl (step K) s) = .ok (some path) →
          ∃ f,(ls.foldl (step K) s).files path = some f ∧
            (s.files path = some f ∨
              ∃ l ∈ ls,l.chip.assetName = some path ∧ Whole l.env.response f) := by
  refine ⟨h.mono fun _ _ hl => intact_of_sound hl,?_⟩
  intro c checkRelease looks path hpath
  obtain ⟨f,hf⟩ := lookThrough_eq_some hpath
  have hfile := nonEmpty_eq_some hf
  refine ⟨f,hfile,?_⟩
  rcases origin h path with (hsame | ⟨-,hnone⟩) | ⟨l,hl,hname,g,hg,hw⟩
  · exact .inl (hsame.symm.trans hfile)
  · rw [hnone] at hfile
    cases hfile
  · rw [hfile] at hg
    cases hg
    exact .inr ⟨l,hl,hname,hw⟩

lemma not_intact_of_short {l : Call T} {name : Name} {f : File T} {n : ℕ}
    (hname : l.chip.assetName = some name) (hbefore : s.files name = none)
    (hafter : (step K s l).files name = some f)
    (hsize : parseSize l.env.response.headers.contentLength = .ok (some n))
    (hlen : f.data.length ≠ n) : ¬Intact K s l := by
  intro h
  have hentry := h.entry name hname
  rw [hbefore,hafter] at hentry
  rcases hentry with (hsame | ⟨-,hnone⟩) | ⟨g,hg,v,hfetch,hwhole⟩
  · cases hsame
  · cases hnone
  · cases hg
    have hv := (fetch_eq_ok hfetch).1
    rw [validators,hsize] at hv
    cases hv
    exact hlen (hwhole n rfl)

section Example

/-- Seconds as natural numbers, and a server that sends no dates. -/
def seconds : Clock ℕ := ⟨fun _ => .error .valueError,fun a b => decide (b < a),id⟩

def image : Name := "u-boot-hi3516av100-universal.bin".toList

def classicChip : Chip := ⟨some image,image,false,false,false⟩

def emptyCache : Cache ℕ := ⟨fun _ => none,fun _ => none⟩

def answering (headers : Headers) : ℕ → Lookup := fun _ => ⟨none,none,.ok headers,none,none,none⟩

/-- A call without faults of the file system. -/
def calm (headers : Headers) (response : Response) : Call ℕ where
  chip := classicChip
  env :=
    { lookups := answering headers,cacheDir := none,find := none,readStale := none,
      statStale := none,response := response,write := ⟨7,none⟩,writeMeta := none,log := none,
      destExists := none,unlink := none,restore := ⟨9,none⟩,utime := none,warn := none,
      findLegacy := none }

def tagged (size tag : String) : Headers := ⟨some size.toList,some tag.toList,none⟩

/-- The body is `n` bytes long and comes in one read. -/
def sends (headers : Headers) (n : ℕ) : Response := ⟨none,headers,[.ok (List.replicate n 0)],none⟩

def refuses (headers : Headers) : Response := ⟨some .connectionError,headers,[],none⟩

/-- A download, and one of a newer image that fails. -/
def twoCalls : List (Call ℕ) :=
  [calm (tagged "1024" "a") (sends (tagged "1024" "a") 1024),
    calm (tagged "2048" "b") (refuses (tagged "0" "b"))]

theorem twoCalls_intact : Runs.Along (step seconds) (Intact seconds) emptyCache twoCalls := by
  refine (cache_intact seconds emptyCache twoCalls ⟨?_,?_,trivial⟩).1
  · refine ⟨fun n data hn hdata _ => ?_,fun _ => nofun,rfl,rfl,rfl,rfl,fun _ _ _ _ => rfl⟩
    have hsize : (1024 : ℕ) = n := Option.some.inj (Except.ok.inj hn)
    have hread : List.replicate 1024 0++[] = data := Except.ok.inj hdata
    rw [← hsize,← hread,List.append_nil,List.length_replicate]
  · refine ⟨fun n data hn hdata _ => ?_,fun _ => nofun,rfl,rfl,rfl,rfl,fun _ _ _ _ => rfl⟩
    have hsize : (0 : ℕ) = n := Option.some.inj (Except.ok.inj hn)
    have hread : [] = data := Except.ok.inj hdata
    rw [← hsize,← hread,List.length_nil]

/-- A connection that ends after 1024 of 2048 bytes. -/
def cutShort : Call ℕ := calm (tagged "2048" "a") (sends (tagged "2048" "a") 1024)

/-- The image is kept as a complete one, and the next lookup takes it for the published one. -/
theorem early_close_judged_current :
    (downloadFirmware seconds classicChip cutShort.env emptyCache).1 = .ok image ∧
      (step seconds emptyCache cutShort).files image = some ⟨List.replicate 1024 0,7⟩ ∧
      getCachedPath seconds classicChip true (answering (tagged "2048" "a"))
        (step seconds emptyCache cutShort) = .ok (some image) ∧
      ¬Runs.Along (step seconds) (Intact seconds) emptyCache [cutShort] := by
  have hfile : (step seconds emptyCache cutShort).files image =
      some ⟨List.replicate 1024 0,7⟩ := by decide +kernel
  have hsize : parseSize cutShort.env.response.headers.contentLength = .ok (some 2048) := by
    decide +kernel
  have hlen : (List.replicate 1024 (0 : Byte)).length ≠ 2048 := by
    rw [List.length_replicate]
    decide
  refine ⟨by decide +kernel,hfile,by decide +kernel,?_⟩
  rintro ⟨h,-⟩
  exact not_intact_of_short rfl rfl hfile hsize hlen h

end Example

end Histories

end Defib.FirmwareCache
