import Mathlib.Data.List.Range
import Mathlib.Logic.Relation
import Mathlib.Tactic.Common

/-!
# Acknowledgements without a name

A client hands jobs to a server over a lossy line, several at a time. A job is a request
and the data after it; the server answers the request when it is free and answers again
when the job is done, and both answers look the same. The client counts answers. A job
can bring at most two of them, so a count of two for each job of a batch leaves no room
for a lost request, a failed job or an answer that belongs to something else, as long as
nothing was left over when the batch was begun.
-/
namespace Defib.AckCredit
open List Option

/-- What is on its way to the server. -/
inductive Item where
  | request (job : ℕ)
  | data
  deriving DecidableEq, Repr

def Item.isRequest : Item → Bool
  | request _ => true
  | data => false

/-- `acks` are the positive answers the client has read or may still read, `stored` the jobs
whose result is in place. -/
structure State where
  line : List Item
  work : Option ℕ
  acks : ℕ
  stored : ℕ → Prop

/-- One move of the line or the server. Requests are passed over while a job is in work, and
a job in work spoils no earlier one. -/
inductive Move : State → State → Prop
  | lose {s : State} {x : Item} {l : List Item} : s.line = x::l → Move s {s with line := l}
  | start {s : State} {j : ℕ} {l : List Item} : s.line = .request j::l → s.work = none →
      Move s {s with line := l, work := some j, acks := s.acks+1}
  | fill {s : State} {j : ℕ} {l : List Item} {stored : ℕ → Prop} : s.line = .data::l →
      s.work = some j → (∀ i < j, s.stored i → stored i) →
      Move s {s with line := l, stored := stored}
  | finish {s : State} {j : ℕ} {l : List Item} {stored : ℕ → Prop} : s.line = .data::l →
      s.work = some j → (∀ i < j, s.stored i → stored i) → stored j →
      Move s {line := l, work := none, acks := s.acks+1, stored := stored}
  | abort {s : State} : Move s {s with work := none}
  | miss {s : State} {n : ℕ} : n ≤ s.acks → Move s {s with acks := n}

/-- The jobs before `c` are in place and nothing under way is about one of them. -/
structure Base (c : ℕ) (s : State) : Prop where
  stored : ∀ i < c, s.stored i
  line : ∀ j, Item.request j ∈ s.line → c ≤ j
  work : ∀ j, s.work = some j → c ≤ j

/-- The answers there can still be, with those that have been given. -/
def credit (s : State) : ℕ := s.acks+(if s.work.isSome then 1 else 0)+
  2*(s.line.countP Item.isRequest)

/-- The requests of jobs `k` to `e-1` are under way, and those before are with the server. -/
structure Exact (k e : ℕ) (s : State) : Prop where
  le : k ≤ e
  line : s.line.filter Item.isRequest = (List.range' k (e-k)).map Item.request
  work : s.work = none ∨ ∃ j, s.work = some j ∧ j+1 = k
  stored : ∀ i < k, s.work ≠ some i → s.stored i

/-- The server is at a job of an earlier batch and has seen nothing of this one. -/
structure Stale (c w : ℕ) (s : State) : Prop where
  acks : s.acks = 0
  work : s.work.isSome = true
  head : s.line.head? = if w = 0 then none else some (.request c)
  line : s.line.filter Item.isRequest = (List.range' c w).map Item.request

/-- A batch of `w` jobs from `c` on. -/
structure Batch (c w : ℕ) (s : State) : Prop where
  base : Base c s
  counted : credit s < 2*w ∨ (credit s = 2*w ∧ ∃ k, Exact k (c+w) s) ∨ Stale c w s

variable {c w : ℕ} {s s' : State}

section Moves

lemma Base.move (h : Base c s) (hm : Move s s') : Base c s' := by
  cases hm with
  | lose hl => exact {h with line := fun j hj => h.line j (hl ▸ mem_cons_of_mem _ hj)}
  | @start j l hl hw =>
    refine ⟨h.stored,fun i hi => h.line i (hl ▸ mem_cons_of_mem _ hi),?_⟩
    rintro i ⟨⟩
    exact h.line j (hl ▸ mem_cons_self)
  | @fill j l stored hl hw hs =>
    refine ⟨fun i hi => ?_,fun i hi => h.line i (hl ▸ mem_cons_of_mem _ hi),h.work⟩
    exact hs i (hi.trans_le (h.work j hw)) (h.stored i hi)
  | @finish j l stored hl hw hs hj =>
    refine ⟨fun i hi => ?_,fun i hi => h.line i (hl ▸ mem_cons_of_mem _ hi),nofun⟩
    exact hs i (hi.trans_le (h.work j hw)) (h.stored i hi)
  | abort => exact {h with work := nofun}
  | miss hn => exact {h with}

variable {l : List Item}

lemma credit_request {j : ℕ} (hl : s.line = .request j::l) :
    credit s = credit {s with line := l}+2 := by
  simp only [credit,hl,countP_cons,Item.isRequest,if_true]
  omega

lemma credit_data (hl : s.line = .data::l) :
    credit s = credit {s with line := l} := by
  simp [credit,hl,Item.isRequest]

lemma Stale.not_data (h : Stale c w s) : s.line ≠ .data::l := by
  intro hl
  have hhead := h.head
  rw [hl,head?_cons] at hhead
  split at hhead
  · exact nomatch hhead
  · exact nomatch hhead

lemma Stale.credit (h : Stale c w s) : credit s = 2*w+1 := by
  rw [AckCredit.credit,h.acks,if_pos h.work,countP_eq_length_filter,h.line,length_map,
    length_range']
  omega

/-- A request that leaves the line unseen costs two answers. -/
theorem Batch.lose (h : Batch c w s) {x : Item} (hl : s.line = x::l) :
    Batch c w {s with line := l} := by
  refine ⟨h.base.move (.lose hl),?_⟩
  cases x with
  | request j =>
    have hcredit := credit_request hl
    refine .inl ?_
    rcases h.counted with hlt | ⟨heq,_⟩ | hstale
    · omega
    · omega
    · have hmany := hstale.credit
      omega
  | data =>
    have hcredit := credit_data hl
    rcases h.counted with hlt | ⟨heq,k,hexact⟩ | hstale
    · exact .inl (hcredit ▸ hlt)
    · refine .inr (.inl ⟨hcredit ▸ heq,k,{hexact with line := ?_}⟩)
      rw [← hexact.line,hl]
      rfl
    · exact absurd hl hstale.not_data

lemma Batch.start (h : Batch c w s) {j : ℕ} (hl : s.line = .request j::l)
    (hw : s.work = none) : Batch c w {s with line := l, work := some j, acks := s.acks+1} := by
  refine ⟨h.base.move (.start hl hw),?_⟩
  have hcredit : credit {s with line := l, work := some j, acks := s.acks+1} = credit s := by
    rw [credit_request hl]
    simp only [credit,hw,isSome_some,isSome_none,if_true]
    simp only [Bool.false_eq_true,if_false]
    omega
  rcases h.counted with hlt | ⟨heq,k,hexact⟩ | hstale
  · exact .inl (hcredit ▸ hlt)
  · -- the request taken is that of job `k`
    have hline := hexact.line
    have hpos : c+w-k = c+w-(k+1)+1 := by
      rcases Nat.eq_zero_or_pos (c+w-k) with hz | hpos
      · rw [hz,hl] at hline
        exact nomatch hline
      · omega
    rw [hl,hpos,range'_succ,map_cons] at hline
    obtain ⟨hj,hrest⟩ := cons_eq_cons.mp hline
    obtain rfl := Item.request.inj hj
    refine .inr (.inl ⟨hcredit ▸ heq,j+1,?_,hrest,.inr ⟨j,rfl,rfl⟩,?_⟩)
    · omega
    · intro i hi hne
      have hij : i ≠ j := fun heq => hne (heq ▸ rfl)
      exact hexact.stored i (by omega) (by simp [hw])
  · exact absurd hstale.work (by simp [hw])

lemma Batch.fill (h : Batch c w s) {j : ℕ} {stored : ℕ → Prop}
    (hl : s.line = .data::l) (hw : s.work = some j) (hs : ∀ i < j, s.stored i → stored i) :
    Batch c w {s with line := l, stored := stored} := by
  refine ⟨h.base.move (.fill hl hw hs),?_⟩
  have hcredit : credit {s with line := l, stored := stored} = credit s := (credit_data hl).symm
  rcases h.counted with hlt | ⟨heq,k,hexact⟩ | hstale
  · exact .inl (hcredit ▸ hlt)
  · refine .inr (.inl ⟨hcredit ▸ heq,k,{hexact with line := ?_, stored := ?_}⟩)
    · rw [← hexact.line,hl]
      rfl
    · intro i hi hne
      obtain hnone | ⟨j',hj',hk⟩ := hexact.work
      · rw [hw] at hnone
        exact nomatch hnone
      · obtain rfl : j' = j := Option.some.inj (hj'.symm.trans hw)
        have hij : i ≠ j' := fun heq => hne (heq ▸ hw)
        exact hs i (by omega) (hexact.stored i hi hne)
  · exact absurd hl hstale.not_data

lemma Batch.finish (h : Batch c w s) {j : ℕ} {stored : ℕ → Prop}
    (hl : s.line = .data::l) (hw : s.work = some j) (hs : ∀ i < j, s.stored i → stored i)
    (hj : stored j) :
    Batch c w {line := l, work := none, acks := s.acks+1, stored := stored} := by
  refine ⟨h.base.move (.finish hl hw hs hj),?_⟩
  have hcredit : credit {line := l, work := none, acks := s.acks+1, stored := stored} =
      credit s := by
    rw [credit_data hl]
    simp [credit,hw]
  rcases h.counted with hlt | ⟨heq,k,hexact⟩ | hstale
  · exact .inl (hcredit ▸ hlt)
  · refine .inr (.inl ⟨hcredit ▸ heq,k,hexact.le,?_,.inl rfl,?_⟩)
    · rw [← hexact.line,hl]
      rfl
    · intro i hi _
      obtain hnone | ⟨j',hj',hk⟩ := hexact.work
      · rw [hw] at hnone
        exact nomatch hnone
      · obtain rfl : j' = j := Option.some.inj (hj'.symm.trans hw)
        rcases Nat.lt_or_ge i j' with hlt | hge
        · exact hs i hlt (hexact.stored i hi (by rw [hw]; simpa using hlt.ne'))
        · obtain rfl : i = j' := by omega
          exact hj
  · exact absurd hl hstale.not_data

lemma Batch.abort (h : Batch c w s) : Batch c w {s with work := none} := by
  refine ⟨h.base.move .abort,?_⟩
  have hcredit : credit s = credit {s with work := none}+if s.work.isSome then 1 else 0 := by
    simp only [credit,isSome_none,Bool.false_eq_true,if_false]
    omega
  rcases h.counted with hlt | ⟨heq,k,hexact⟩ | hstale
  · exact .inl (by omega)
  · obtain hnone | ⟨j,hj,hk⟩ := hexact.work
    · refine .inr (.inl ⟨?_,k,{hexact with work := .inl rfl, stored := ?_}⟩)
      · rw [hnone] at hcredit
        simp only [isSome_none,Bool.false_eq_true,if_false,Nat.add_zero] at hcredit
        exact hcredit ▸ heq
      · intro i hi _
        exact hexact.stored i hi (by simp [hnone])
    · rw [hj] at hcredit
      simp only [isSome_some,if_true] at hcredit
      exact .inl (by omega)
  · -- the server is free again before it has seen anything of the batch
    have hmany := hstale.credit
    rw [if_pos hstale.work] at hcredit
    refine .inr (.inl ⟨by omega,c,Nat.le_add_right _ _,?_,.inl rfl,fun i hi _ => ?_⟩)
    · rw [Nat.add_sub_cancel_left]
      exact hstale.line
    · exact h.base.stored i hi

lemma Batch.miss (h : Batch c w s) {n : ℕ} (hn : n ≤ s.acks) :
    Batch c w {s with acks := n} := by
  rcases Nat.lt_or_eq_of_le hn with hlt | rfl
  · refine ⟨h.base.move (.miss hn),.inl ?_⟩
    have hcredit : credit {s with acks := n} < credit s := by
      simp only [credit]
      omega
    rcases h.counted with hless | ⟨heq,_⟩ | hstale
    · omega
    · omega
    · have hzero := hstale.acks
      omega
  · exact h

lemma Batch.move (h : Batch c w s) (hm : Move s s') : Batch c w s' := by
  cases hm with
  | lose hl => exact h.lose hl
  | start hl hw => exact h.start hl hw
  | fill hl hw hs => exact h.fill hl hw hs
  | finish hl hw hs hj => exact h.finish hl hw hs hj
  | abort => exact h.abort
  | miss hn => exact h.miss hn

abbrev Moves : State → State → Prop := Relation.ReflTransGen Move

lemma Base.moves (h : Base c s) (hm : Moves s s') : Base c s' := by
  induction hm with
  | refl => exact h
  | tail _ hlast ih => exact ih.move hlast

lemma Batch.moves (h : Batch c w s) (hm : Moves s s') : Batch c w s' := by
  induction hm with
  | refl => exact h
  | tail _ hlast ih => exact ih.move hlast

end Moves

section Client
variable {ds : List Item}

lemma filter_data (hds : ∀ x ∈ ds, x = Item.data) : ds.filter Item.isRequest = [] := by
  rw [filter_eq_nil_iff]
  intro x hx
  rw [hds x hx]
  exact Bool.false_ne_true

lemma Batch.submit (h : Batch c w s) (hds : ∀ x ∈ ds, x = Item.data) :
    Batch c (w+1) {s with line := s.line++.request (c+w)::ds} := by
  have hfilter : (s.line++.request (c+w)::ds).filter Item.isRequest =
      s.line.filter Item.isRequest++[.request (c+w)] := by
    rw [filter_append,filter_cons,filter_data hds]
    rfl
  have hcredit : credit {s with line := s.line++.request (c+w)::ds} = credit s+2 := by
    simp only [credit,countP_eq_length_filter,hfilter,length_append,
      length_singleton]
    omega
  have hrange : ∀ k,k ≤ c+w → (List.range' k (c+w-k)).map Item.request++[.request (c+w)] =
      (List.range' k (c+(w+1)-k)).map Item.request := by
    intro k hk
    rw [show c+(w+1)-k = c+w-k+1 by omega,range'_concat,map_append]
    simp only [Nat.one_mul,map_cons,map_nil]
    rw [show k+(c+w-k) = c+w by omega]
  constructor
  · refine {h.base with line := ?_}
    intro j hj
    rcases mem_append.mp hj with hj | hj
    · exact h.base.line j hj
    · rcases mem_cons.mp hj with hj | hj
      · rw [Item.request.inj hj]
        exact Nat.le_add_right _ _
      · exact nomatch hds _ hj
  · rcases h.counted with hlt | ⟨heq,k,hexact⟩ | hstale
    · exact .inl (by omega)
    · refine .inr (.inl ⟨by omega,k,{hexact with le := ?_, line := ?_}⟩)
      · have hle := hexact.le
        omega
      · rw [hfilter,hexact.line,hrange k hexact.le]
    · refine .inr (.inr {hstale with head := ?_, line := ?_})
      · have hhead := hstale.head
        rw [if_neg (Nat.succ_ne_zero w),head?_append,hhead]
        rcases Nat.eq_zero_or_pos w with rfl | hw
        · rfl
        · rw [if_neg hw.ne']
          rfl
      · have hnew := hrange c (Nat.le_add_right _ _)
        rw [Nat.add_sub_cancel_left,Nat.add_sub_cancel_left] at hnew
        rw [hfilter,hstale.line,hnew]

lemma Batch.feed (h : Batch c w s) (hw : 0 < w) (hds : ∀ x ∈ ds, x = Item.data) :
    Batch c w {s with line := s.line++ds} := by
  have hfilter : (s.line++ds).filter Item.isRequest = s.line.filter Item.isRequest := by
    rw [filter_append,filter_data hds,append_nil]
  have hcredit : credit {s with line := s.line++ds} = credit s := by
    simp only [credit,countP_eq_length_filter,hfilter]
  constructor
  · refine {h.base with line := ?_}
    intro j hj
    rcases mem_append.mp hj with hj | hj
    · exact h.base.line j hj
    · exact nomatch hds _ hj
  · rcases h.counted with hlt | ⟨heq,k,hexact⟩ | hstale
    · exact .inl (hcredit ▸ hlt)
    · exact .inr (.inl ⟨hcredit ▸ heq,k,{hexact with line := hfilter.trans hexact.line}⟩)
    · refine .inr (.inr {hstale with head := ?_, line := hfilter.trans hstale.line})
      rw [head?_append,hstale.head,if_neg hw.ne']
      rfl

/-- Two answers for each job: they are all in place, and no answer is left. -/
theorem Batch.settle (h : Batch c w s) (hacks : 2*w ≤ s.acks) :
    s.acks = 2*w ∧ Batch (c+w) 0 {s with acks := 0} := by
  rcases h.counted with hlt | ⟨heq,k,hexact⟩ | hstale
  · simp only [credit] at hlt
    omega
  · simp only [credit,countP_eq_length_filter,hexact.line,length_map,
      length_range'] at heq
    have hfree : s.work = none := by
      cases hwork : s.work with
      | none => rfl
      | some j =>
        rw [hwork] at heq
        simp only [isSome_some,if_true] at heq
        omega
    have hk : k = c+w := by
      have hle := hexact.le
      omega
    subst hk
    have hline : s.line.filter Item.isRequest = [] := by
      rw [hexact.line,Nat.sub_self]
      rfl
    have hstored : ∀ i < c+w,s.stored i := fun i hi => hexact.stored i hi (by simp [hfree])
    refine ⟨by omega,⟨hstored,fun j hj => ?_,by simp [hfree]⟩,.inr (.inl ⟨?_,c+w,?_⟩)⟩
    · have hmem : Item.request j ∈ s.line.filter Item.isRequest := mem_filter.mpr ⟨hj,rfl⟩
      rw [hline] at hmem
      exact absurd hmem not_mem_nil
    · simp [credit,hfree,countP_eq_length_filter,hline]
    · refine ⟨le_rfl,?_,.inl hfree,fun i hi _ => hstored i hi⟩
      rw [Nat.add_zero,Nat.sub_self]
      exact hline
  · have hzero := hstale.acks
    obtain rfl : w = 0 := by omega
    exact ⟨hzero,h.miss (Nat.zero_le _)⟩

lemma Base.restart (h : Base c s) (hline : s.line = []) : Batch c 0 {s with acks := 0} := by
  refine ⟨⟨h.stored,h.line,h.work⟩,?_⟩
  cases hwork : s.work with
  | none =>
    refine .inr (.inl ⟨by simp [credit,hline],c,le_rfl,?_,.inl rfl,fun i hi _ => ?_⟩)
    · simp [hline]
    · exact h.stored i hi
  | some j => exact .inr (.inr ⟨rfl,rfl,by simp [hline],by simp [hline]⟩)

end Client

end Defib.AckCredit
