import Defib.Restore

/-!
# When the reported success is earned

`restore` reports success whenever nothing raises: a failed fetch or a missing layout
skips a partition, and the replies to erase and write commands are not looked at. A
reported success means that every partition was fetched and written without a reported
error exactly if no reply took one of these paths.
-/
namespace Defib.RestoreSuccess
open List Words PyText Dicts Mtdparts UbiImage Dialogue Dialogue.Program Restore

/-- The status line of the download mode, or the words the source itself looks for. -/
def reportsError (r : Reply) : Bool := !r.ok || r.has "error" || r.has "cannot"

def changesFlash : Command → Bool
  | .nandErase _ _ | .nandWrite _ _ _ | .sfErase _ _ | .sfWrite _ _ _ | .mmcErase _ _ => true
  | .mmcWrite _ _ _ | .ubiPart _ | .ubiCreate _ | .ubiWrite _ _ _ => true
  | _ => false

def decidesFetch (c : Command) (r : Reply) : Bool :=
  match c with
  | .tftpboot _ _ => !r.has "unknown command"
  | .tftp _ _ => true
  | _ => false

/-- The fetch of partition `i` was reported done. -/
def Fetched (i : ℕ) (log : List (Request × Reply)) : Prop :=
  ∃ x ∈ log,x.1.part = some i ∧ decidesFetch x.1.cmd x.2 = true ∧ x.2.fetched = true

/-- Every partition was fetched, and none of its flash commands reported an error. -/
def Earned (j : Job) (log : List (Request × Reply)) : Prop :=
  ∀ i < j.partitions.length,Fetched i log ∧
    ∀ x ∈ log,x.1.part = some i → changesFlash x.1.cmd = true → reportsError x.2 = false

def IsUbi (j : Job) (data : List Byte) : Prop := ∃ d,prepare j data = some (d,true)

/-- The map lists every UBI partition of the job. -/
def Covers (j : Job) (m : Partmap) : Prop :=
  ∀ p ∈ j.partitions,IsUbi j p.2 → (getItem m (firstIndex j p.1)).isSome = true

/-- The layout text does, if it can be read at all. -/
def Lists (T : CharTable) (limit : Option ℕ) (j : Job) (layout : List Char) : Prop :=
  ∀ m,ubiPartmap T limit layout = some m → Covers j m

/-- The reply leads on to the fetch, or reports it done. -/
def GoodFetch (T : CharTable) (c : Command) (r : Reply) : Prop :=
  match c with
  | .tftpboot _ _ => r.has "unknown command" = true ∨ r.fetched = true
  | .tftp _ _ => r.fetched = true
  | .printenvMtdparts => (searchHinand T r.text).isSome = true
  | _ => True

/-- A reply that takes no silent path of the source. -/
def GoodReply (T : CharTable) (limit : Option ℕ) (j : Job) (q : Request) (r : Reply) : Prop :=
  GoodFetch T q.cmd r ∧ (∀ v,q.cmd = .setenvMtdparts v → Lists T limit j v) ∧
    (changesFlash q.cmd = true → reportsError r = false)

/-! ### The replies to one partition's commands -/

section
variable {T : CharTable} {limit : Option ℕ} {j : Job}

def AnyReply (_ : Request) (_ : Reply) : Prop := True

abbrev ForPart (i : ℕ) (q : Request) : Prop := q.part = some i

def AllGood (T : CharTable) (log : List (Request × Reply)) : Prop :=
  ∀ y ∈ log,GoodFetch T y.1.cmd y.2

/-- The layout text was sent in this dialogue. -/
def Sent (v : List Char) (log : List (Request × Reply)) : Prop :=
  ∃ y ∈ log,y.1.cmd = .setenvMtdparts v

lemma allGood_append {l l' : List (Request × Reply)} :
    AllGood T (l++l') ↔ AllGood T l ∧ AllGood T l' := forall_mem_append

lemma fetched_append {i : ℕ} {l l' : List (Request × Reply)} :
    Fetched i (l++l') ↔ Fetched i l ∨ Fetched i l' := by
  simp only [Fetched,mem_append,or_and_right,exists_or]

lemma sent_append {v : List Char} {l l' : List (Request × Reply)} :
    Sent v (l++l') ↔ Sent v l ∨ Sent v l' := by
  simp only [Sent,mem_append,or_and_right,exists_or]

lemma fetched_of_part {i : ℕ} {l : List (Request × Reply)} (h : Fetched i l) :
    ∃ y ∈ l,y.1.part = some i := by
  obtain ⟨y,hy,hpart,-⟩ := h
  exact ⟨y,hy,hpart⟩

/-- Write commands decide no fetch, and send no layout. -/
theorem writes_neutral {l : List (Request × Reply)} (h : ∀ y ∈ l,changesFlash y.1.cmd = true) :
    AllGood T l ∧ (∀ i,¬Fetched i l) ∧ ∀ v,¬Sent v l := by
  refine ⟨fun y hy => ?_,?_,?_⟩
  · have hc := h y hy
    cases hcmd : y.1.cmd <;> rw [hcmd] at hc <;> trivial
  · rintro i ⟨y,hy,-,hdec,-⟩
    have hc := h y hy
    cases hcmd : y.1.cmd <;> rw [hcmd] at hc hdec <;>
      first | exact absurd hc Bool.false_ne_true | exact absurd hdec Bool.false_ne_true
  · rintro v ⟨y,hy,heq⟩
    have hc := h y hy
    rw [heq] at hc
    cases hc

/-- What a fetch, with the writes that may follow, says of its partition. -/
def FetchOutcome (T : CharTable) (i : ℕ) (l : List (Request × Reply)) : Prop :=
  (Fetched i l ↔ AllGood T l) ∧ ∀ v,¬Sent v l

lemma fetch_outcome (i : ℕ) (name : List Char) : Safe AnyReply (ForPart i)
    (fun ok l => (ok = true ↔ AllGood T l) ∧ FetchOutcome T i l) (fetch j i name) := by
  refine Safe.ask_bind rfl fun r _ => ?_
  by_cases hu : r.has "unknown command" = true
  · rw [if_pos hu]
    refine Safe.ask_bind rfl fun r' _ => Safe.pure ?_
    simp [FetchOutcome,AllGood,GoodFetch,Fetched,Sent,decidesFetch,hu]
  · rw [if_neg hu]
    refine Safe.pure ?_
    simp [FetchOutcome,AllGood,GoodFetch,Fetched,Sent,decidesFetch,hu]

lemma fetchThen_outcome {i : ℕ} {name : List Char} {write : Session Unit}
    (hw : Safe AnyReply (fun q => ForPart i q ∧ changesFlash q.cmd = true)
      (fun _ _ => True) write) :
    Safe AnyReply (ForPart i) (fun _ l => FetchOutcome T i l) (fetchThen j i name write) := by
  refine (fetch_outcome (T := T) i name).bind fun ok l hok => ?_
  cases ok with
  | true =>
    refine (hw.logged fun q hq => hq.1).mono fun _ l' h => ?_
    obtain ⟨hgood,hfetch,hsent⟩ := writes_neutral (T := T) fun y hy => (h.2 y hy).2
    refine ⟨?_,fun v hv => ?_⟩
    · rw [fetched_append,allGood_append,hok.2.1]
      exact ⟨fun hl => ⟨hl.resolve_right (hfetch i),hgood⟩,fun hl => .inl hl.1⟩
    · exact (sent_append.mp hv).elim (hok.2.2 v) (hsent v)
  | false =>
    refine Safe.pure ?_
    rw [append_nil]
    exact hok.2

lemma writeRaw_flash (i off : ℕ) (data : List Byte) :
    Safe AnyReply (fun q => ForPart i q ∧ changesFlash q.cmd = true) (fun _ _ => True)
      (writeRaw j i data off) := by
  unfold writeRaw
  cases j.flash with
  | nand | nor | emmc =>
    exact Safe.ask_bind ⟨rfl,rfl⟩ fun _ _ => Safe.ask_bind ⟨rfl,rfl⟩ fun _ _ => Safe.pure trivial
  | other => exact Safe.pure trivial

lemma writeUbi_flash (i off size : ℕ) (data : List Byte) (vol : List Char) :
    Safe AnyReply (fun q => ForPart i q ∧ changesFlash q.cmd = true) (fun _ _ => True)
      (writeUbi j i data vol off size) :=
  Safe.ask_bind ⟨rfl,rfl⟩ fun _ _ => Safe.ask_bind ⟨rfl,rfl⟩ fun _ _ =>
    Safe.ask_bind ⟨rfl,rfl⟩ fun _ _ => Safe.ask_bind ⟨rfl,rfl⟩ fun _ _ => Safe.pure trivial

/-- What has become of the layout after a dialogue that began with `partmap`. -/
structure MapOutcome (T : CharTable) (limit : Option ℕ) (partmap m' : Option Partmap)
    (l : List (Request × Reply)) : Prop where
  kept : ∀ m ∈ partmap,m' = some m
  sent : ∀ v,Sent v l → ∃ m,ubiPartmap T limit v = some m ∧ m' = some m
  origin : ∀ m ∈ m',partmap = some m ∨ ∃ v,Sent v l ∧ ubiPartmap T limit v = some m

lemma MapOutcome.same {partmap : Option Partmap} {l : List (Request × Reply)}
    (h : ∀ v,¬Sent v l) : MapOutcome T limit partmap partmap l :=
  ⟨fun _ hm => hm,fun v hv => absurd hv (h v),fun _ hm => .inl hm⟩

lemma MapOutcome.trans {m₀ m₁ m₂ : Option Partmap} {l l' : List (Request × Reply)}
    (h : MapOutcome T limit m₀ m₁ l) (h' : MapOutcome T limit m₁ m₂ l') :
    MapOutcome T limit m₀ m₂ (l++l') where
  kept := fun m hm => h'.kept m (h.kept m hm)
  sent := by
    intro v hv
    rcases sent_append.mp hv with hv | hv
    · obtain ⟨m,hm,hm₁⟩ := h.sent v hv
      exact ⟨m,hm,h'.kept m hm₁⟩
    · exact h'.sent v hv
  origin := by
    intro m hm
    rcases h'.origin m hm with hm | ⟨v,hv,hm⟩
    · rcases h.origin m hm with hm | ⟨v,hv,hm⟩
      · exact .inl hm
      · exact .inr ⟨v,sent_append.mpr (.inl hv),hm⟩
    · exact .inr ⟨v,sent_append.mpr (.inr hv),hm⟩

lemma findLayout_outcome (i : ℕ) : Safe AnyReply (ForPart i)
    (fun v l => (v.isSome = true ↔ AllGood T l) ∧ (¬Fetched i l) ∧ ∀ v,¬Sent v l)
    (findLayout T j i) := by
  unfold findLayout
  split_ifs with h
  · exact Safe.pure (by simp [AllGood,Fetched,Sent])
  · refine Safe.ask_bind rfl fun r _ => ?_
    cases hs : searchHinand T r.text with
    | some v => exact Safe.pure (by simp [AllGood,GoodFetch,Fetched,Sent,decidesFetch])
    | none =>
      exact Safe.ask_bind rfl fun r' _ => Safe.pure
        (by simp [AllGood,GoodFetch,Fetched,Sent,decidesFetch])

lemma layoutFor_outcome (partmap : Option Partmap) (i : ℕ) : Safe AnyReply (ForPart i)
    (fun m' l => MapOutcome T limit partmap m' l ∧ (m'.isSome = true ↔ AllGood T l) ∧ ¬Fetched i l)
    (layoutFor T limit j partmap i) := by
  cases partmap with
  | some m => exact Safe.pure ⟨.same (by simp [Sent]),by simp [AllGood],by simp [Fetched]⟩
  | none =>
    refine (findLayout_outcome i).bind fun v l hv => ?_
    obtain ⟨hgood,hfetch,hsent⟩ := hv
    cases v with
    | none =>
      refine Safe.pure ?_
      rw [append_nil]
      exact ⟨.same hsent,hgood,hfetch⟩
    | some v =>
      refine Safe.ask_bind rfl fun _ _ => Safe.ask_bind rfl fun _ _ =>
        Safe.ask_bind rfl fun _ _ => ?_
      cases hm : ubiPartmap T limit v with
      | none => trivial
      | some m =>
        have hl : AllGood T l := hgood.mp rfl
        refine Safe.pure ⟨⟨nofun,fun w hw => ⟨m,?_,rfl⟩,fun m' hm' => .inr ⟨v,?_,?_⟩⟩,?_,?_⟩
        · rcases sent_append.mp hw with hw | hw
          · exact absurd hw (hsent w)
          · have heq : v = w := by simpa [Sent] using hw
            rw [← heq,hm]
        · exact sent_append.mpr (.inr (by simp [Sent]))
        · cases hm'
          exact hm
        · exact iff_of_true rfl (allGood_append.mpr ⟨hl,by simp [AllGood,GoodFetch]⟩)
        · rw [fetched_append]
          exact fun h => h.elim hfetch (by simp [Fetched,decidesFetch])

def Found (j : Job) (m : Partmap) (x : Item) : Prop :=
  (getItem m (firstIndex j x.2.1)).isSome = true

/-- What the dialogue for partition `x` tells. -/
structure Outcome (T : CharTable) (limit : Option ℕ) (j : Job) (x : Item)
    (partmap m' : Option Partmap) (l : List (Request × Reply)) : Prop where
  map : MapOutcome T limit partmap m' l
  fetched : Fetched x.1 l ↔ AllGood T l ∧ ∀ m ∈ m',IsUbi j x.2.2 → Found j m x
  skipped : m' = none → IsUbi j x.2.2 → ¬AllGood T l

lemma writeUbiPartition_outcome (partmap : Option Partmap) {x : Item} (hubi : IsUbi j x.2.2)
    (data : List Byte) : Safe AnyReply (ForPart x.1) (Outcome T limit j x partmap)
      (writeUbiPartition T limit j partmap x.1 x.2.1 data) := by
  refine (layoutFor_outcome partmap x.1).bind fun m' l h => ?_
  obtain ⟨hmap,hgood,hfetch⟩ := h
  cases hv : m'.bind fun m => getItem m (firstIndex j x.2.1) with
  | none =>
    have hskip : m' = none → IsUbi j x.2.2 → ¬AllGood T l := by
      rintro rfl - hl
      cases hgood.mpr hl
    refine Safe.pure ?_
    rw [append_nil]
    refine ⟨hmap,iff_of_false hfetch fun ⟨hl,hfound⟩ => ?_,hskip⟩
    obtain ⟨m,rfl⟩ := Option.isSome_iff_exists.mp (hgood.mpr hl)
    have hm := hfound m rfl hubi
    rw [Found,show getItem m (firstIndex j x.2.1) = none from hv] at hm
    cases hm
  | some v =>
    obtain ⟨m,rfl,hget⟩ := Option.bind_eq_some_iff.mp hv
    refine (fetchThen_outcome (T := T) (writeUbi_flash ..)).bind fun _ l' h' => Safe.pure ?_
    rw [append_nil]
    refine ⟨hmap.trans (.same h'.2),?_,nofun⟩
    rw [fetched_append,allGood_append,h'.1]
    have hl : AllGood T l := hgood.mp rfl
    refine ⟨fun hor => ⟨⟨hl,hor.resolve_left hfetch⟩,fun m' hm' _ => ?_⟩,fun h => .inr h.1.2⟩
    cases hm'
    exact Option.isSome_iff_exists.mpr ⟨v,hget⟩

lemma writePartition_outcome (offsets : List (ℕ × ℕ)) (partmap : Option Partmap) (x : Item) :
    Safe AnyReply (ForPart x.1) (Outcome T limit j x partmap)
      (writePartition T limit j offsets partmap x) := by
  unfold writePartition
  cases hp : prepare j x.2.2 with
  | none => trivial
  | some p =>
    obtain ⟨data,ubi⟩ := p
    cases ubi with
    | true => exact writeUbiPartition_outcome partmap ⟨data,hp⟩ data
    | false =>
      have hraw : ¬IsUbi j x.2.2 := by
        rintro ⟨d,hd⟩
        rw [hp] at hd
        cases hd
      refine (fetchThen_outcome (T := T) (writeRaw_flash ..)).bind fun _ l h => Safe.pure ?_
      rw [append_nil]
      exact ⟨.same h.2,h.1.trans ⟨fun hl => ⟨hl,fun _ _ hu => absurd hu hraw⟩,fun hl => hl.1⟩,
        fun _ hu => absurd hu hraw⟩

/-! ### The whole run -/

/-- What the dialogue for the partitions `d` tells. -/
structure RunOutcome (T : CharTable) (limit : Option ℕ) (j : Job) (m : Option Partmap)
    (d : List Item) (l : List (Request × Reply)) : Prop where
  map : MapOutcome T limit none m l
  parts : ∀ y ∈ l,∃ x ∈ d,y.1.part = some x.1
  fetched : (∀ x ∈ d,Fetched x.1 l) ↔ AllGood T l ∧ ∀ p ∈ m,∀ x ∈ d,IsUbi j x.2.2 → Found j p x
  skipped : m = none → AllGood T l → ∀ x ∈ d,¬IsUbi j x.2.2

lemma RunOutcome.step {m m' : Option Partmap} {d : List Item} {x : Item}
    {l l' : List (Request × Reply)} (h : RunOutcome T limit j m d l)
    (hx : Outcome T limit j x m m' l') (hl' : ∀ y ∈ l',ForPart x.1 y.1)
    (hnew : ∀ z ∈ d,z.1 ≠ x.1) : RunOutcome T limit j m' (d++[x]) (l++l') where
  map := h.map.trans hx.map
  parts := by
    intro y hy
    rcases mem_append.mp hy with hy | hy
    · obtain ⟨z,hz,hpart⟩ := h.parts y hy
      exact ⟨z,mem_append_left _ hz,hpart⟩
    · exact ⟨x,by simp,hl' y hy⟩
  fetched := by
    -- the dialogues are about different partitions
    have hold : ∀ z ∈ d,Fetched z.1 (l++l') ↔ Fetched z.1 l := by
      intro z hz
      rw [fetched_append]
      refine ⟨fun hor => hor.resolve_right fun hf => ?_,Or.inl⟩
      obtain ⟨y,hy,hpart⟩ := fetched_of_part hf
      exact hnew z hz (Option.some.inj (hpart.symm.trans (hl' y hy)))
    have hlast : Fetched x.1 (l++l') ↔ Fetched x.1 l' := by
      rw [fetched_append]
      refine ⟨fun hor => hor.resolve_left fun hf => ?_,Or.inr⟩
      obtain ⟨y,hy,hpart⟩ := fetched_of_part hf
      obtain ⟨z,hz,hzpart⟩ := h.parts y hy
      exact hnew z hz (Option.some.inj (hzpart.symm.trans hpart))
    have hall : (∀ z ∈ d++[x],Fetched z.1 (l++l')) ↔ (∀ z ∈ d,Fetched z.1 l) ∧ Fetched x.1 l' := by
      simp only [forall_mem_append,forall_mem_singleton,hlast]
      exact and_congr_left fun _ => forall₂_congr hold
    rw [hall,h.fetched,hx.fetched,allGood_append]
    simp only [forall_mem_append,forall_mem_singleton]
    constructor
    · rintro ⟨⟨hl,hfound⟩,hl',hfound'⟩
      refine ⟨⟨hl,hl'⟩,fun p hp => ⟨fun z hz hubi => ?_,hfound' p hp⟩⟩
      cases m with
      | none => exact absurd hubi (h.skipped rfl hl z hz)
      | some q =>
        rw [hx.map.kept q rfl] at hp
        cases hp
        exact hfound p rfl z hz hubi
    · rintro ⟨⟨hl,hl'⟩,hfound⟩
      refine ⟨⟨hl,fun p hp => (hfound p (hx.map.kept p hp)).1⟩,hl',fun p hp => (hfound p hp).2⟩
  skipped := by
    rintro rfl hgood
    obtain ⟨hl,hl'⟩ := allGood_append.mp hgood
    have hm : m = none := by
      cases m with
      | none => rfl
      | some q => cases hx.map.kept q rfl
    rw [forall_mem_append,forall_mem_singleton]
    exact ⟨h.skipped hm hl,fun hubi => hx.skipped rfl hubi hl'⟩

lemma loop_outcome (offsets : List (ℕ × ℕ)) (xs : List Item) (m : Option Partmap)
    (d : List Item) (l : List (Request × Reply)) (hdist : ((d++xs).map (·.1)).Nodup)
    (h : RunOutcome T limit j m d l) : Safe AnyReply (fun _ => True)
      (fun m' l' => RunOutcome T limit j m' (d++xs) (l++l'))
      (xs.foldlM (writePartition T limit j offsets) m) := by
  induction xs generalizing m d l with
  | nil =>
    refine Safe.pure ?_
    rwa [append_nil,append_nil]
  | cons x xs ih =>
    rw [foldlM_cons]
    have hnew : ∀ z ∈ d,z.1 ≠ x.1 := by
      rw [map_append,nodup_append] at hdist
      exact fun z hz => hdist.2.2 _ (mem_map_of_mem hz) _ (by simp)
    refine ((writePartition_outcome offsets m x).logged fun _ _ => trivial).bind fun m' l' hx => ?_
    have hstep := h.step hx.1 hx.2 hnew
    rw [append_cons] at hdist ⊢
    refine (ih m' (d++[x]) (l++l') hdist hstep).mono fun m'' l'' hend => ?_
    rwa [append_assoc l] at hend

lemma items_nodup (j : Job) : (j.writeOrder.map (·.1)).Nodup := by
  have hperm : j.writeOrder.Perm j.items := by
    rw [Job.writeOrder,perm_comm]
    exact ((filter_append_perm (fun x => !isBoot x) j.items).symm.trans (by simp))
  rw [(hperm.map _).nodup_iff]
  have hidx : j.items.map (·.1) = List.range' 0 j.partitions.length := by
    rw [Job.items,map_map]
    exact zipIdx_map_snd 0 j.partitions
  rw [hidx]
  exact nodup_range'

lemma restore_outcome : Safe AnyReply (fun _ => True) (fun _ l => ∃ m l₀ r,
    l = l₀++[(⟨none,.reset⟩,r)] ∧ RunOutcome T limit j m j.writeOrder l₀) (restore T limit j) := by
  unfold restore
  cases j.offsets T limit with
  | none => trivial
  | some offsets =>
    have hstart : RunOutcome T limit j none [] [] :=
      ⟨.same (by simp [Sent]),nofun,iff_of_true nofun ⟨nofun,nofun⟩,fun _ _ => nofun⟩
    refine (loop_outcome offsets j.writeOrder none [] [] (items_nodup j) hstart).bind
      fun m l h => Safe.ask_bind trivial fun r _ => Safe.pure ⟨m,l,r,rfl,h⟩

lemma covers_iff {m : Partmap} :
    Covers j m ↔ ∀ x ∈ j.writeOrder,IsUbi j x.2.2 → Found j m x := by
  constructor
  · exact fun h x hx => h x.2 (mem_items (mem_writeOrder.mp hx))
  · intro h p hp
    obtain ⟨i,hi⟩ := mem_iff_getElem?.mp hp
    exact h (i,p) (mem_writeOrder.mpr (mem_map.mpr
      ⟨(p,i),mk_mem_zipIdx_iff_getElem?.mpr hi,rfl⟩))

lemma RunOutcome.lists_iff {m : Option Partmap} {l : List (Request × Reply)}
    (h : RunOutcome T limit j m j.writeOrder l) :
    (∀ p ∈ m,∀ x ∈ j.writeOrder,IsUbi j x.2.2 → Found j p x) ↔
      ∀ v,Sent v l → Lists T limit j v := by
  constructor
  · intro hfound v hv p hp
    obtain ⟨q,hq,hm⟩ := h.map.sent v hv
    rw [hp] at hq
    cases hq
    exact covers_iff.mpr (hfound p hm)
  · intro hlists p hp
    rcases h.map.origin p hp with hnone | ⟨v,hv,hmap⟩
    · cases hnone
    · exact covers_iff.mp (hlists v hv p hmap)

lemma earned_iff {l : List (Request × Reply)} {r : Reply}
    (hparts : ∀ y ∈ l,∃ x ∈ j.writeOrder,y.1.part = some x.1) :
    Earned j (l++[(⟨none,.reset⟩,r)]) ↔ (∀ x ∈ j.writeOrder,Fetched x.1 l) ∧
      ∀ y ∈ l,changesFlash y.1.cmd = true → reportsError y.2 = false := by
  have hlast : ∀ i,Fetched i (l++[(⟨none,.reset⟩,r)]) ↔ Fetched i l := fun i => by
    rw [fetched_append]
    exact or_iff_left (by simp [Fetched])
  constructor
  · intro h
    have hlt : ∀ x ∈ j.writeOrder,x.1 < j.partitions.length := fun x hx => by
      obtain ⟨p,hp,rfl⟩ := mem_map.mp (mem_writeOrder.mp hx)
      exact (List.getElem?_eq_some_iff.mp (mem_zipIdx_iff_getElem?.mp hp)).1
    refine ⟨fun x hx => (hlast x.1).mp (h x.1 (hlt x hx)).1,fun y hy => ?_⟩
    obtain ⟨x,hx,hpart⟩ := hparts y hy
    exact (h x.1 (hlt x hx)).2 y (mem_append_left _ hy) hpart
  · rintro ⟨hfetched,hflash⟩ i hi
    obtain ⟨x,hx,rfl⟩ := Job.exists_item hi
    refine ⟨(hlast x.1).mpr (hfetched x (mem_writeOrder.mpr hx)),fun y hy hpart => ?_⟩
    rcases mem_append.mp hy with hy | hy
    · exact hflash y hy
    · rw [mem_singleton.mp hy] at hpart
      cases hpart

lemma RunOutcome.earned_iff_good {m : Option Partmap} {l : List (Request × Reply)} {r : Reply}
    (h : RunOutcome T limit j m j.writeOrder l) :
    Earned j (l++[(⟨none,.reset⟩,r)]) ↔
      ∀ x ∈ l++[(⟨none,.reset⟩,r)],GoodReply T limit j x.1 x.2 := by
  have hreset : GoodReply T limit j ⟨none,.reset⟩ r := ⟨trivial,nofun,nofun⟩
  rw [earned_iff h.parts,h.fetched,h.lists_iff,forall_mem_append,forall_mem_singleton,
    and_iff_left hreset]
  constructor
  · rintro ⟨⟨hgood,hlists⟩,hflash⟩ y hy
    exact ⟨hgood y hy,fun v hv => hlists v ⟨y,hy,hv⟩,hflash y hy⟩
  · intro hall
    refine ⟨⟨fun y hy => (hall y hy).1,?_⟩,fun y hy => (hall y hy).2.2⟩
    rintro v ⟨y,hy,hv⟩
    exact (hall y hy).2.1 v hv

/-! ### Replies that are not looked at -/

def ForFlash (q : Request) : Prop := changesFlash q.cmd = true

lemma fetchThen_ignores {i : ℕ} {name : List Char} {write : Session Unit}
    (hw : Ignores ForFlash write) : Ignores ForFlash (fetchThen j i name write) := by
  have hfetch : Ignores ForFlash (fetch j i name) := by
    refine Ignores.ask_bind Bool.false_ne_true fun r => ?_
    split_ifs
    · exact Ignores.ask_bind Bool.false_ne_true fun _ => trivial
    · trivial
  refine hfetch.bind fun ok => ?_
  split_ifs
  · exact hw
  · trivial

lemma layoutFor_ignores (partmap : Option Partmap) (i : ℕ) :
    Ignores ForFlash (layoutFor T limit j partmap i) := by
  cases partmap with
  | some m => trivial
  | none =>
    have hfind : Ignores ForFlash (findLayout T j i) := by
      unfold findLayout
      split_ifs
      · trivial
      · refine Ignores.ask_bind Bool.false_ne_true fun r => ?_
        cases searchHinand T r.text with
        | some v => trivial
        | none => exact Ignores.ask_bind Bool.false_ne_true fun _ => trivial
    refine hfind.bind fun v => ?_
    cases v with
    | none => trivial
    | some v =>
      refine Ignores.ask_then (Ignores.ask_then (Ignores.ask_then ?_))
      cases ubiPartmap T limit v <;> trivial

lemma writePartition_ignores (offsets : List (ℕ × ℕ)) (partmap : Option Partmap) (x : Item) :
    Ignores ForFlash (writePartition T limit j offsets partmap x) := by
  unfold writePartition
  split
  · trivial
  · refine (layoutFor_ignores partmap x.1).bind fun m => ?_
    cases m.bind fun m => getItem m (firstIndex j x.2.1) with
    | none => trivial
    | some v =>
      refine (fetchThen_ignores ?_).bind fun _ => trivial
      exact Ignores.ask_then (Ignores.ask_then (Ignores.ask_then (Ignores.ask_then trivial)))
  · refine (fetchThen_ignores ?_).bind fun _ => trivial
    unfold writeRaw
    cases j.flash with
    | nand | nor | emmc => exact Ignores.ask_then (Ignores.ask_then trivial)
    | other => trivial

lemma restore_ignores : Ignores ForFlash (restore T limit j) := by
  unfold restore
  cases j.offsets T limit with
  | none => trivial
  | some offsets =>
    exact (Ignores.foldlM (writePartition_ignores offsets) j.writeOrder none).bind fun _ =>
      Ignores.ask_then trivial

end

/-- A reported success is earned exactly if no reply takes a silent path; and success is
reported whatever the erase, write and ubi commands reply. -/
theorem restore_success_earned (T : CharTable) (limit : Option ℕ) (j : Job) (replies : List Reply)
    (hdone : ((restore T limit j).run replies).2 = some ()) :
    (Earned j ((restore T limit j).run replies).1 ↔
      ∀ x ∈ ((restore T limit j).run replies).1,GoodReply T limit j x.1 x.2) ∧
    ∀ replies',List.Forall₂ (fun x r => changesFlash x.1.cmd = false → r = x.2)
        ((restore T limit j).run replies).1 replies' →
      ((restore T limit j).run replies').2 = some () := by
  constructor
  · obtain ⟨m,l,r,hlog,hout⟩ :=
      (restore_outcome.run replies fun _ _ => trivial).2 () hdone
    rw [hlog]
    exact hout.earned_iff_good
  · intro replies' h
    rw [← hdone]
    exact restore_ignores.run (h.imp fun x r hr hn => hr (Bool.eq_false_iff.mpr hn))

def norJob : Job := ⟨[("flash".toList,[1,2,3])],[],.nor,0x42000000⟩

def fetchedReplies : List Reply :=
  [⟨true,"Bytes transferred = 3".toList⟩,⟨true,[]⟩,⟨true,[]⟩,⟨true,[]⟩]

lemma norJob_fetched_log : ((restore asciiTable (some 4300) norJob).run fetchedReplies).1 =
    [(⟨some 0,.tftpboot 0x42000000 "flash".toList⟩,⟨true,"Bytes transferred = 3".toList⟩),
      (⟨some 0,.sfErase 0 0x10000⟩,⟨true,[]⟩),(⟨some 0,.sfWrite 0x42000000 0 3⟩,⟨true,[]⟩),
      (⟨none,.reset⟩,⟨true,[]⟩)] := by
  decide +kernel

/-- With a failed `sf erase` the success is the same, but not earned. -/
def failedErase : List Reply :=
  [⟨true,"Bytes transferred = 3".toList⟩,⟨true,"Erase failed: cannot".toList⟩,⟨true,[]⟩,⟨true,[]⟩]

theorem norJob_fetched_earned :
    Earned norJob ((restore asciiTable (some 4300) norJob).run fetchedReplies).1 ∧
      ((restore asciiTable (some 4300) norJob).run failedErase).2 = some () := by
  obtain ⟨hearned,hsame⟩ := restore_success_earned asciiTable (some 4300) norJob fetchedReplies
    (by decide +kernel)
  rw [hearned]
  rw [norJob_fetched_log] at hsame ⊢
  constructor
  · simp only [forall_mem_cons]
    exact ⟨⟨.inr (by decide +kernel),nofun,nofun⟩,⟨trivial,nofun,fun _ => by decide +kernel⟩,
      ⟨trivial,nofun,fun _ => by decide +kernel⟩,⟨trivial,nofun,nofun⟩,nofun⟩
  · exact hsame failedErase
      (.cons (fun _ => rfl) (.cons nofun (.cons nofun (.cons (fun _ => rfl) .nil))))

def refusedReplies : List Reply := [⟨true,"TFTP error: 'File not found' (1)".toList⟩,⟨true,[]⟩]

theorem norJob_refused_succeeds :
    ((restore asciiTable (some 4300) norJob).run refusedReplies).2 = some () ∧
      ¬Earned norJob ((restore asciiTable (some 4300) norJob).run refusedReplies).1 := by
  refine ⟨by decide +kernel,fun h => ?_⟩
  have hlog : ((restore asciiTable (some 4300) norJob).run refusedReplies).1 =
      [(⟨some 0,.tftpboot 0x42000000 "flash".toList⟩,
        ⟨true,"TFTP error: 'File not found' (1)".toList⟩),(⟨none,.reset⟩,⟨true,[]⟩)] := by
    decide +kernel
  obtain ⟨⟨x,hx,_,_,hfetched⟩,_⟩ := h 0 (by decide)
  have hnone : ∀ y ∈ ((restore asciiTable (some 4300) norJob).run refusedReplies).1,
      y.2.fetched = false := by
    rw [hlog]
    decide +kernel
  rw [hnone x hx] at hfetched
  cases hfetched

end Defib.RestoreSuccess
