import Defib.FlashDevice

/-!
# Page programs at any address

`spi_flash.h` asks callers of `flash_write_page` for a page-aligned address, and not every
caller obliges. What the drivers do at other addresses depends on the commands they send:
FMC100 one for the page, HISFC350 one for every 64 bytes with the bank of the first, and
NAND one that is cut at the end of the page. A command never leaves its page.
-/
namespace Defib.PagePrograms
open List Words BlockMemory Spans NorDrivers NorReach Boards FlashDevice

/-- One program command on an array with pages of `k` bytes. -/
def wrapProgram (k : ℕ) (m : ℕ → Byte) (c : ℕ × List Byte) : ℕ → Byte := fun x =>
  if x/k = c.1/k then (c.2[(x%k+k-c.1%k)%k]?).elim (m x) (m x &&& ·) else m x

section
variable {k : ℕ} {m : ℕ → Byte} {c : ℕ × List Byte} {x : ℕ}

lemma wrapProgram_other (h : c.1/k ≠ x/k) : wrapProgram k m c x = m x :=
  if_neg (Ne.symm h)

lemma and_ff (v : Byte) : v &&& 0xFF#8 = v := BitVec.and_allOnes

lemma ff_and (v : Byte) : 0xFF#8 &&& v = v := BitVec.allOnes_and

lemma wrapProgram_ff (h : ∀ v ∈ c.2,v = 0xFF#8) : wrapProgram k m c x = m x := by
  unfold wrapProgram
  split_ifs
  · cases hget : c.2[(x%k+k-c.1%k)%k]? with
    | none => rfl
    | some v =>
      rw [h v (mem_of_getElem? hget)]
      exact and_ff (m x)
  · rfl

lemma wrapProgram_eq_blend (hk : 0 < k) (h : c.1%k+c.2.length ≤ k) :
    wrapProgram k m c = blend (· &&& ·) m c.1 c.2 := by
  funext x
  exact wrap_eq_blend (· &&& ·) m hk h x

end

/-- The commands of `flash_write_page`, with the cell each is sent to. -/
def commands (d : NorDriver) (a : ℕ) (xs : List Byte) : Medium → List (ℕ × List Byte)
  | .nor id2 =>
    match d with
    | .fmc100 => [(phys .fmc100 (detectSize id2) a,xs.take 256)]
    | .hisfc350 => (pieces 64 (xs.take 256).length).map fun s =>
      ((physBank (detectSize id2) a .hisfc350*16777216+(a+s.1)%16777216)%detectSize id2,
        ((xs.take 256).drop s.1).take s.2)
  | .nand => [(a%134217728,xs.take (2048-a%2048))]
  | .emmc _ => []

/-- The bytes a driver puts into one command. -/
def commandSize (d : NorDriver) : Medium → ℕ
  | .nor _ => match d with
      | .fmc100 => 256
      | .hisfc350 => 64
  | .nand => 2048
  | .emmc _ => 512

lemma commandSize_dvd (d : NorDriver) {m : Medium} (hspi : m.info.flashType ≠ .emmc) :
    commandSize d m ∣ m.info.pageSize := by
  cases m with
  | nor id2 =>
    cases d with
    | fmc100 => exact show 256 ∣ 256 by decide
    | hisfc350 => exact show 64 ∣ 256 by decide
  | nand => exact show 2048 ∣ 2048 by decide
  | emmc c => exact absurd rfl hspi

lemma Hisfc350.program_commands (ps : List (ℕ × ℕ)) (addr : ℕ) (page : List Byte)
    (h : Hisfc350) (hlock : h.chip.status &&& 0x7C#8 = 0) :
    (ps.foldl (fun h s =>
      h.command (·.pageProgram ((addr+s.1)%16777216) ((page.drop s.1).take s.2))
        fun _ => ⟨rfl,rfl⟩) h).chip.mem =
      (ps.map fun s => ((h.chip.ear*16777216+(addr+s.1)%16777216)%h.chip.size,
        (page.drop s.1).take s.2)).foldl (wrapProgram 256) h.chip.mem := by
  induction ps generalizing h with
  | nil => rfl
  | cons s ps ih =>
    have hmem := pageProgram_mem ((addr+s.1)%16777216) ((page.drop s.1).take s.2) hlock
    rw [NorChip.cell,Nat.mod_mod] at hmem
    refine (ih (h.command (·.pageProgram ((addr+s.1)%16777216) ((page.drop s.1).take s.2))
      fun _ => ⟨rfl,rfl⟩) hlock).trans ?_
    exact congrArg (List.foldl (wrapProgram 256) · _) hmem

section
variable {d : NorDriver} {m : Medium} {dev : Dev}

lemma Dev.flashWritePage_commands (hfit : dev.Fits d m) (hspi : m.info.flashType ≠ .emmc)
    {a : ℕ} (hgood : dev.faults.program (a/2048%65536) = none) (xs : List Byte) :
    (dev.flashWritePage a xs).2.array =
      (commands d a xs m).foldl (wrapProgram m.info.pageSize) dev.array := by
  cases dev with
  | nor f =>
    cases m with
    | nor id2 =>
      obtain ⟨rfl,hsize⟩ := hfit
      cases f with
      | fmc100 f =>
        have hmem := (Fmc100.flashWritePage_spec f a xs).1
        rw [show f.chip.size = detectSize id2 from hsize] at hmem
        exact hmem
      | hisfc350 h =>
        obtain ⟨umem,usize,ulock,uear⟩ := Hisfc350.prepared_spec h a
        have hmem := Hisfc350.program_commands (pieces 64 (xs.take 256).length) a
          (xs.take 256) _ ulock
        rw [umem,usize,uear,show h.chip.size = detectSize id2 from hsize] at hmem
        exact hmem
    | nand => exact hfit.elim
    | emmc c => exact hfit.elim
  | nand n =>
    cases m with
    | nor id2 => exact hfit.elim
    | nand =>
      have hcut := length_take_le (2048-a%2048) xs
      have hmem := NandChip.flashWritePage_mem n a (xs.take (2048-a%2048)) (by omega) hgood
      have hsame : n.flashWritePage a (xs.take (2048-a%2048)) = n.flashWritePage a xs := by
        rw [NandChip.flashWritePage,take_take,Nat.min_self]
        rfl
      rw [hsame] at hmem
      refine hmem.trans (wrapProgram_eq_blend (c := (a%134217728,_)) (by decide) ?_).symm
      show a%134217728%2048+(xs.take (2048-a%2048)).length ≤ 2048
      omega
    | emmc c => exact hfit.elim
  | emmc card bus =>
    cases m with
    | nor id2 => exact hfit.elim
    | nand => exact hfit.elim
    | emmc c => exact absurd rfl hspi

variable {xs : List Byte}

lemma Dev.flashWritePage_keeps (hfit : dev.Fits d m) (hspi : m.info.flashType ≠ .emmc)
    {a x : ℕ} (hgood : dev.faults.program (a/2048%65536) = none) (h : ∀ c ∈ commands d a xs m,
      c.1/m.info.pageSize ≠ x/m.info.pageSize ∨ ∀ v ∈ c.2,v = 0xFF#8) :
    (dev.flashWritePage a xs).2.array x = dev.array x := by
  rw [Dev.flashWritePage_commands hfit hspi hgood]
  generalize commands d a xs m = cs at h
  generalize dev.array = arr
  induction cs generalizing arr with
  | nil => rfl
  | cons c cs ih =>
    rw [foldl_cons,ih fun c' hc' => h c' (mem_cons_of_mem c hc')]
    rcases h c mem_cons_self with hpage | hff
    · exact wrapProgram_other hpage
    · exact wrapProgram_ff hff

lemma mem_commands {c : ℕ × List Byte} {a : ℕ} (h : c ∈ commands d a xs m) :
    c.2 ⊆ xs ∧ c.1 < reach d m := by
  cases m with
  | nor id2 =>
    cases d with
    | fmc100 =>
      obtain rfl := mem_singleton.mp h
      exact ⟨take_subset _ _,phys_lt_reach _ _ _⟩
    | hisfc350 =>
      obtain ⟨s,-,rfl⟩ := mem_map.mp h
      refine ⟨fun v hv => mem_of_mem_take (mem_of_mem_drop (mem_of_mem_take hv)),
        Nat.lt_of_le_of_lt (Nat.mod_le _ _) ?_⟩
      simp only [physBank,FlashDevice.reach,NorReach.reach]
      split_ifs <;> omega
  | nand =>
    obtain rfl := mem_singleton.mp h
    exact ⟨take_subset _ _,Nat.mod_lt _ (by decide)⟩
  | emmc c => cases h

lemma Dev.flashWritePage_ff (hfit : dev.Fits d m) (hspi : m.info.flashType ≠ .emmc)
    {a x : ℕ} (hgood : dev.faults.program (a/2048%65536) = none)
    (h : ∀ v ∈ xs,v = 0xFF#8) : (dev.flashWritePage a xs).2.array x = dev.array x :=
  Dev.flashWritePage_keeps hfit hspi hgood fun _ hc =>
    .inr fun v hv => h v ((mem_commands hc).1 hv)

lemma reach_mod_page (hspi : m.info.flashType ≠ .emmc) : reach d m%m.info.pageSize = 0 := by
  cases m with
  | nor id2 =>
    have hmod := reach_mod d
    simp only [FlashDevice.reach,Medium.info]
    omega
  | nand => exact show 134217728%2048 = 0 by decide
  | emmc c => exact absurd rfl hspi

lemma Dev.flashWritePage_beyond (hfit : dev.Fits d m) (hspi : m.info.flashType ≠ .emmc)
    {a x : ℕ} (hgood : dev.faults.program (a/2048%65536) = none) (xs : List Byte)
    (hx : reach d m ≤ x) : (dev.flashWritePage a xs).2.array x = dev.array x := by
  refine Dev.flashWritePage_keeps hfit hspi hgood fun c hc => .inl ?_
  have hlt := (mem_commands hc).2
  obtain ⟨q,hq⟩ := Nat.dvd_of_mod_eq_zero (reach_mod_page (d := d) hspi)
  have hpos := m.info_geometry.2.1
  have hlow : c.1/m.info.pageSize < q := by
    rw [Nat.div_lt_iff_lt_mul hpos,Nat.mul_comm]
    omega
  have hhigh : q ≤ x/m.info.pageSize := by
    rw [Nat.le_div_iff_mul_le hpos,Nat.mul_comm]
    omega
  omega

/-- The bytes stay in one page, or every command stays in one and in the bank of the first. -/
def Fitting (d : NorDriver) (a n : ℕ) (m : Medium) : Prop :=
  a%m.info.pageSize+n ≤ m.info.pageSize ∨
    a%commandSize d m = 0 ∧ ¬(a < 16777216 ∧ 16777216 < a+n)

lemma bankCell_eq {size a o : ℕ} (hs : a+o < size) (hr : a+o < 33554432)
    (hbank : ¬(a < 16777216 ∧ 16777216 ≤ a+o)) :
    (physBank size a .hisfc350*16777216+(a+o)%16777216)%size = a+o := by
  have hsum : physBank size a .hisfc350*16777216+(a+o)%16777216 = a+o := by
    simp only [physBank]
    split_ifs <;> omega
  rw [hsum,Nat.mod_eq_of_lt hs]

lemma hisfc350_commands_blend {size a : ℕ} {page : List Byte} (hpage : page.length ≤ 256)
    (hs : a+page.length ≤ size) (hr : a+page.length ≤ 33554432)
    (hfit : a%256+page.length ≤ 256 ∨
      a%64 = 0 ∧ ¬(a < 16777216 ∧ 16777216 < a+page.length)) (o n : ℕ)
    (hon : o+n = page.length) (ho : o%64 = 0 ∨ n = 0) (arr : ℕ → Byte) :
    ((spans (fun _ => 64) o n).map fun s =>
      ((physBank size a .hisfc350*16777216+(a+s.1)%16777216)%size,
        (page.drop s.1).take s.2)).foldl (wrapProgram 256) arr =
      blend (· &&& ·) arr (a+o) (page.drop o) := by
  induction o, n using spans_induction (l := fun _ => 64) (fun _ => by decide)
    generalizing arr with
  | done o =>
    have hnil : page.drop o = [] := drop_eq_nil_of_le (by omega)
    simp [hnil]
  | piece o n hn ih =>
    rw [spans_pos (fun _ => by decide) o n hn,map_cons,foldl_cons]
    generalize hc : min 64 n = c at ih ⊢
    have hlen : ((page.drop o).take c).length = c := by simp; omega
    have hcell : (physBank size a .hisfc350*16777216+(a+o)%16777216)%size = a+o :=
      bankCell_eq (by omega) (by omega) (by omega)
    simp only
    rw [hcell,wrapProgram_eq_blend (c := (a+o,_)) (by decide)
      (show (a+o)%256+((page.drop o).take c).length ≤ 256 by omega),ih (by omega) (by omega)]
    have hjoin := blend_append (· &&& ·) arr (a+o) ((page.drop o).take c) (page.drop (o+c))
    rw [hlen,Nat.add_assoc] at hjoin
    refine hjoin.trans ?_
    rw [← drop_drop,take_append_drop]

lemma Dev.flashWritePage_exact (hfit : dev.Fits d m) (hspi : m.info.flashType ≠ .emmc)
    {a : ℕ} (hgood : dev.faults.program (a/2048%65536) = none)
    (hpos : 0 < xs.length) (hlen : xs.length ≤ m.info.pageSize)
    (hs : a+xs.length ≤ m.info.size) (hr : a+xs.length ≤ reach d m)
    (hfits : Fitting d a xs.length m) :
    (dev.flashWritePage a xs).2.array = blend (· &&& ·) dev.array a xs := by
  rw [Dev.flashWritePage_commands hfit hspi hgood]
  cases m with
  | nor id2 =>
    simp only [Fitting,Medium.info,commandSize] at hfits hlen hs
    cases d with
    | fmc100 =>
      have hplace : phys .fmc100 (detectSize id2) a = a :=
        phys_eq (by omega) (show a < NorReach.reach .fmc100 from Nat.lt_of_lt_of_le (by omega) hr)
      simp only [commands,foldl_cons,foldl_nil,Medium.info,hplace,
        take_of_length_le hlen]
      simp only at hfits
      exact wrapProgram_eq_blend (by decide) (show a%256+xs.length ≤ 256 by omega)
    | hisfc350 =>
      have hall := hisfc350_commands_blend hlen hs hr hfits 0 xs.length (Nat.zero_add _)
        (.inl rfl) dev.array
      rw [Nat.add_zero,drop_zero] at hall
      simpa only [commands,Medium.info,take_of_length_le hlen,pieces] using hall
  | nand =>
    simp only [Fitting,Medium.info,commandSize] at hfits hlen hs
    simp only [commands,foldl_cons,foldl_nil,Medium.info,
      Nat.mod_eq_of_lt (show a < 134217728 by omega),
      take_of_length_le (show xs.length ≤ 2048-a%2048 by omega)]
    exact wrapProgram_eq_blend (by decide) (show a%2048+xs.length ≤ 2048 by omega)
  | emmc c => exact absurd rfl hspi

lemma Dev.flashWritePage_misses (hfit : dev.Fits d m) (hspi : m.info.flashType ≠ .emmc)
    {a x : ℕ} (hgood : dev.faults.program (a/2048%65536) = none)
    (hlen : xs.length ≤ m.info.pageSize)
    (hs : a+xs.length ≤ m.info.size) (hr : a+xs.length ≤ reach d m) (hax : a < x)
    (hxa : x < a+xs.length) (hx : x%m.info.pageSize = 0)
    (hbad : a%commandSize d m ≠ 0 ∨ x = 16777216)
    (hff : ∀ i v,xs[i]? = some v → a+i ≠ x → v = 0xFF#8) :
    (dev.flashWritePage a xs).2.array x = dev.array x := by
  apply Dev.flashWritePage_keeps hfit hspi hgood
  intro c hc
  cases m with
  | nor id2 =>
    simp only [Medium.info,commandSize] at hlen hs hx hbad ⊢
    cases d with
    | fmc100 =>
      obtain rfl := mem_singleton.mp hc
      left
      rw [show phys .fmc100 (detectSize id2) a = a from phys_eq (by omega)
        (show a < NorReach.reach .fmc100 from Nat.lt_of_lt_of_le (by omega) hr)]
      omega
    | hisfc350 =>
      rw [commands,take_of_length_le hlen] at hc
      obtain ⟨s,hmem,rfl⟩ := mem_map.mp hc
      obtain ⟨hstart,hspos,hsle,hsend,-⟩ := mem_pieces (by decide) hmem
      have hr' : a+xs.length ≤ 33554432 := hr
      by_cases hin : a+s.1 ≤ x ∧ x < a+s.1+s.2
      · left
        simp only at hbad ⊢
        rcases Nat.lt_or_ge (a+s.1) x with hlt | hge
        · -- the command starts in an earlier page
          rw [bankCell_eq (by omega) (by omega) (by omega)]
          omega
        · -- it starts at the bank's end and is sent to the beginning of the bank
          have hbank : physBank (detectSize id2) a .hisfc350 = 0 := by
            simp only [physBank]
            rw [if_neg (by omega)]
          have hmod := Nat.mod_le ((a+s.1)%16777216) (detectSize id2)
          rw [hbank,Nat.zero_mul,Nat.zero_add]
          omega
      · right
        intro v hv
        obtain ⟨i,hi,rfl⟩ := mem_iff_getElem.mp hv
        rw [length_take,length_drop] at hi
        refine hff (s.1+i) _ ?_ (by omega)
        rw [getElem_take,getElem_drop]
        exact getElem?_eq_getElem (by omega)
  | nand =>
    obtain rfl := mem_singleton.mp hc
    left
    simp only [Medium.info] at hs hx ⊢
    rw [Nat.mod_eq_of_lt (show a < 134217728 by omega)]
    omega
  | emmc c => exact absurd rfl hspi

end

end Defib.PagePrograms
