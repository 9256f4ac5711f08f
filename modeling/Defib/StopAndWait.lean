import Mathlib.Data.List.Basic

/-!
# Stop and wait with answers that carry no number

A sender repeats its current packet until it takes an answer for an acknowledgement and
then goes on to the next one. An answer says nothing about the packet it belongs to. On
the line every answer is tagged here with the position of the packet it was given to; no
party can read the tags. Packets arrive or are corrupted, and answers arrive late or not
at all but in order. As long as no acknowledgement of another packet is on its way when
a packet is written, an acknowledgement that is read means that the receiver has taken
the packet.
-/
namespace Defib.StopAndWait
open List

variable {R P A : Type*}

/-- The receiver, the answers on their way and those waiting to be read. -/
structure Line (R A : Type*) where
  receiver : R
  inFlight : List (ℕ × A)
  arrived : List (ℕ × A)

namespace Line

/-- All answers that may still be read. -/
def queue (l : Line R A) : List (ℕ × A) := l.arrived++l.inFlight

def flush (l : Line R A) : Line R A := {l with arrived := []}

/-- The oldest answer on its way arrives. -/
def arrive (l : Line R A) : Line R A :=
  {l with inFlight := l.inFlight.tail, arrived := l.arrived++l.inFlight.take 1}

/-- The oldest answer on its way is lost. -/
def lose (l : Line R A) : Line R A := {l with inFlight := l.inFlight.tail}

/-- The oldest answer that has arrived is read. -/
def drop (l : Line R A) : Line R A := {l with arrived := l.arrived.tail}

/-- The packet at position `i` reaches the receiver, `none` when it is corrupted. -/
def deliver (receive : R → Option P → R × List A) (i : ℕ) (p : Option P) (l : Line R A) :
    Line R A :=
  let r := receive l.receiver p
  {l with receiver := r.1, inFlight := l.inFlight++r.2.map fun a => (i,a)}

end Line

/-- The receiver after `k` is reached by taking the packets before position `k` in order;
a repetition of the last of them changes nothing, and a corrupted packet changes nothing
and is not acknowledged. -/
structure Tracks (receive : R → Option P → R × List A) (positive : A → Prop) (packet : ℕ → P)
    (state : ℕ → R) (last : ℕ) : Prop where
  next : ∀ i < last,(receive (state i) (some (packet i))).1 = state (i+1)
  again : ∀ i < last,(receive (state (i+1)) (some (packet i))).1 = state (i+1)
  bad : ∀ k,(receive (state k) none).1 = state k ∧ ∀ a ∈ (receive (state k) none).2,¬ positive a

variable {receive : R → Option P → R × List A} {positive : A → Prop} {packet : ℕ → P}
  {state : ℕ → R} {last : ℕ}

/-- The receiver has taken the packets before position `i`, and perhaps that packet too;
only packets it has taken are acknowledged on the line. -/
def Near (positive : A → Prop) (state : ℕ → R) (i : ℕ) (l : Line R A) : Prop :=
  ∃ k,(k = i ∨ k = i+1) ∧ l.receiver = state k ∧ ∀ x ∈ l.queue,positive x.2 → x.1 < k

/-- Every acknowledgement that may still be read belongs to position `i`. -/
def Own (positive : A → Prop) (i : ℕ) (l : Line R A) : Prop :=
  ∀ x ∈ l.queue,positive x.2 → x.1 = i

/-- No acknowledgement of another packet is on its way. -/
def Clear (positive : A → Prop) (i : ℕ) (l : Line R A) : Prop :=
  ∀ x ∈ l.inFlight,positive x.2 → x.1 = i

instance [DecidablePred positive] (i : ℕ) (l : Line R A) : Decidable (Clear positive i l) :=
  inferInstanceAs (Decidable (∀ x ∈ l.inFlight,positive x.2 → x.1 = i))

variable {i : ℕ} {l l' : Line R A}

lemma Near.mono (h : Near positive state i l) (hr : l'.receiver = l.receiver)
    (hq : ∀ x ∈ l'.queue,x ∈ l.queue) : Near positive state i l' := by
  obtain ⟨k,hk,hstate,htags⟩ := h
  exact ⟨k,hk,hr.trans hstate,fun x hx => htags x (hq x hx)⟩

lemma Own.mono (h : Own positive i l) (hq : ∀ x ∈ l'.queue,x ∈ l.queue) : Own positive i l' :=
  fun x hx => h x (hq x hx)

lemma mem_queue_flush {x : ℕ × A} (h : x ∈ l.flush.queue) : x ∈ l.queue :=
  mem_append_right _ h

lemma mem_queue_arrive {x : ℕ × A} (h : x ∈ l.arrive.queue) : x ∈ l.queue := by
  have hsame : l.arrive.queue = l.queue := by
    simp only [Line.queue,Line.arrive,append_assoc]
    rw [← drop_one,take_append_drop]
  rwa [hsame] at h

lemma mem_queue_lose {x : ℕ × A} (h : x ∈ l.lose.queue) : x ∈ l.queue := by
  rcases mem_append.mp h with h | h
  · exact mem_append_left _ h
  · exact mem_append_right _ (mem_of_mem_tail h)

lemma mem_queue_drop {x : ℕ × A} (h : x ∈ l.drop.queue) : x ∈ l.queue := by
  rcases mem_append.mp h with h | h
  · exact mem_append_left _ (mem_of_mem_tail h)
  · exact mem_append_right _ h

/-- Delivering the packet at the sender's position, intact or not. -/
theorem Near.deliver (ht : Tracks receive positive packet state last) (hi : i < last)
    (h : Near positive state i l) {p : Option P} (hp : p = none ∨ p = some (packet i)) :
    Near positive state i (l.deliver receive i p) := by
  obtain ⟨k,hk,hstate,htags⟩ := h
  have hmem : ∀ x ∈ (l.deliver receive i p).queue,
      x ∈ l.queue ∨ ∃ a ∈ (receive l.receiver p).2,x = (i,a) := by
    intro x hx
    simp only [Line.queue,Line.deliver,mem_append,mem_map] at hx
    rcases hx with hx | hx | ⟨a,ha,rfl⟩
    · exact .inl (mem_append_left _ hx)
    · exact .inl (mem_append_right _ hx)
    · exact .inr ⟨a,ha,rfl⟩
  rcases hp with rfl | rfl
  · obtain ⟨hsame,hneg⟩ := ht.bad k
    refine ⟨k,hk,?_,?_⟩
    · rw [← hsame,← hstate]
      rfl
    · intro x hx hpos
      rcases hmem x hx with hx | ⟨a,ha,rfl⟩
      · exact htags x hx hpos
      · rw [hstate] at ha
        exact absurd hpos (hneg a ha)
  · -- whether it is new or a repetition, the packet has been taken now
    have htaken : (receive l.receiver (some (packet i))).1 = state (i+1) := by
      rw [hstate]
      rcases hk with rfl | rfl
      · exact ht.next k hi
      · exact ht.again i hi
    refine ⟨i+1,.inr rfl,htaken,?_⟩
    intro x hx hpos
    rcases hmem x hx with hx | ⟨a,_,rfl⟩
    · have := htags x hx hpos
      omega
    · exact Nat.lt_succ_self i

/-- An acknowledgement of the current packet takes the sender to the next one. -/
theorem Near.acknowledged (h : Near positive state i l) {x : ℕ × A} (hx : x ∈ l.queue)
    (hpos : positive x.2) (htag : x.1 = i) : Near positive state (i+1) l := by
  obtain ⟨k,hk,hstate,htags⟩ := h
  have hlt := htags x hx hpos
  have hk' : k = i+1 := by omega
  exact ⟨k,.inl hk',hstate,htags⟩

/-- After a flush only the acknowledgements on their way are left. -/
theorem Own.flush (h : Clear positive i l) : Own positive i l.flush := h

lemma Own.deliver (h : Own positive i l) (p : Option P) :
    Own positive i (l.deliver receive i p) := by
  intro x hx hpos
  simp only [Line.queue,Line.deliver,mem_append,mem_map] at hx
  rcases hx with hx | hx | ⟨a,_,rfl⟩
  · exact h x (mem_append_left _ hx) hpos
  · exact h x (mem_append_right _ hx) hpos
  · rfl

/-- Copies of one packet, one after the other. -/
def Line.deliverAll (receive : R → Option P → R × List A) (i : ℕ) (ps : List (Option P))
    (l : Line R A) : Line R A :=
  ps.foldl (fun l p => l.deliver receive i p) l

lemma Near.deliverAll (ht : Tracks receive positive packet state last) (hi : i < last)
    (h : Near positive state i l) {ps : List (Option P)}
    (hps : ∀ p ∈ ps,p = none ∨ p = some (packet i)) :
    Near positive state i (l.deliverAll receive i ps) := by
  induction ps generalizing l with
  | nil => exact h
  | cons p ps ih =>
    rw [forall_mem_cons] at hps
    exact ih (h.deliver ht hi hps.1) hps.2

lemma Own.deliverAll (h : Own positive i l) (ps : List (Option P)) :
    Own positive i (l.deliverAll receive i ps) := by
  induction ps generalizing l with
  | nil => exact h
  | cons p ps ih => exact ih (h.deliver p)

lemma Line.deliverAll_receiver {Q : R → Prop} {ps : List (Option P)}
    (hstep : ∀ r,∀ p ∈ ps,Q r → Q (receive r p).1) (h : Q l.receiver) :
    Q (l.deliverAll receive i ps).receiver := by
  induction ps generalizing l with
  | nil => exact h
  | cons p ps ih =>
    apply ih
    · exact fun r q hq => hstep r q (mem_cons_of_mem _ hq)
    · exact hstep _ p mem_cons_self h

end Defib.StopAndWait
