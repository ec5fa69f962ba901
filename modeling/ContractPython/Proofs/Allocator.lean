import ContractPython.Lib.FirstFit
import ContractPython.Lib.Program
import ContractPython.Model.MemoryManager
import Mathlib.Data.List.Nodup
import Mathlib.Data.List.Pairwise

/-!
# The default memory manager hands out separate blocks

The manager keeps its blocks apart and inside its pages as long as the 32-bit page counter of
`malloc` does not overflow and the page limit is not 0. The test against the limit is an equality,
and the manager starts with one page.
-/

namespace ContractPython.Proofs

open FirstFit Program DefaultMemoryManager

/-! ### Machine numbers -/

@[simp] lemma pageSize_toNat : pageSize.toNat = 1048576 := rfl

/-- A position in a page survives the conversions between `int` and `size_t`. -/
lemma toNat_ofNat_int32 {x : Nat} (hx : x ≤ 1048576) : (Int32.ofNat x).toInt64.toUInt64.toNat = x := by
  have hnonneg : 0 ≤ (Int32.ofNat x).toInt64 := by
    rw [Int64.le_iff_toInt_le, Int32.toInt_toInt64, Int32.toInt_ofNat_of_lt (by omega)]
    simp
  rw [Int64.toNat_toUInt64_of_le hnonneg, Int32.toNatClampNeg_toInt64,
    Int32.toNatClampNeg_ofNat_of_lt (by omega)]

lemma toInt_eq_toNat {k : Int64} (h : k.toUInt64.toNat < 2 ^ 63) : k.toInt = k.toUInt64.toNat := by
  have hbits : k.toBitVec.toNat = k.toUInt64.toNat := rfl
  have hk : k.toBitVec.toInt = k.toBitVec.toNat := BitVec.toInt_eq_toNat_of_lt (by omega)
  rw [← hbits, ← hk]
  rfl

/-- The order of the allocation map is that of the addresses. -/
lemma toNat_lt_of_compare {k k' : Int64} (h : compare k k' = .lt) (hk : k.toUInt64.toNat < 2 ^ 63)
    (hk' : k'.toUInt64.toNat < 2 ^ 63) : k.toUInt64.toNat < k'.toUInt64.toNat := by
  have hlt : k < k' := compareOfLessAndEq_eq_lt.mp h
  rw [Int64.lt_iff_toInt_lt, toInt_eq_toNat hk, toInt_eq_toNat hk'] at hlt
  omega

/-! ### The loops of `malloc` -/

/-- An entry of the allocation map. -/
abbrev LiveBlock := Int64 × AllocInfo

/-- The bytes of a block. -/
def LiveBlock.bytes (e : LiveBlock) : Nat × Nat := (e.1.toUInt64.toNat, e.2.size.toNat)

/-- An entry of a page lies in that page. -/
def InPage (page buffer : UInt64) (e : LiveBlock) : Prop :=
  e.2.page = page → buffer.toNat ≤ e.bytes.1 ∧ e.bytes.1 + e.bytes.2 ≤ buffer.toNat + pageSize.toNat

/-- The blocks of a page, relative to its start. -/
def blocksIn (page buffer : UInt64) (allocs : List LiveBlock) : List (Nat × Nat) :=
  (allocs.filter fun e => e.2.page = page).map fun e => (e.bytes.1 - buffer.toNat, e.bytes.2)

lemma mem_blocksIn {page buffer : UInt64} {allocs : List LiveBlock} {b : Nat × Nat}
    (hb : b ∈ blocksIn page buffer allocs) :
    ∃ e ∈ allocs, e.2.page = page ∧ b = (e.bytes.1 - buffer.toNat, e.bytes.2) := by
  obtain ⟨e, he, rfl⟩ := List.mem_map.mp hb
  obtain ⟨hmem, hpage⟩ := List.mem_filter.mp he
  exact ⟨e, hmem, of_decide_eq_true hpage, rfl⟩

lemma mem_blocksIn_of_mem {page buffer : UInt64} {allocs : List LiveBlock} {e : LiveBlock} (he : e ∈ allocs)
    (hpage : e.2.page = page) : (e.bytes.1 - buffer.toNat, e.bytes.2) ∈ blocksIn page buffer allocs :=
  List.mem_map.mpr ⟨e, List.mem_filter.mpr ⟨he, decide_eq_true hpage⟩, rfl⟩

/-- The inner loop searches for the first gap between the blocks of its page. -/
lemma gapInPage_eq {bufPos : UInt32} {buffer size : UInt64} {last : Nat} {allocs : List LiveBlock}
    (hin : ∀ e ∈ allocs, InPage bufPos.toUInt64 buffer e) (hlast : last ≤ pageSize.toNat)
    (hasc : Ascending last (blocksIn bufPos.toUInt64 buffer allocs)) :
    gapInPage bufPos buffer size (Int32.ofNat last) allocs =
      (firstGap size.toNat last (blocksIn bufPos.toUInt64 buffer allocs)).map Int32.ofNat := by
  induction allocs generalizing last with
  | nil => rfl
  | cons e allocs ih =>
    obtain ⟨ptr, a⟩ := e
    have hrest : ∀ e ∈ allocs, InPage bufPos.toUInt64 buffer e :=
      fun e he => hin e (List.mem_cons_of_mem _ he)
    rw [gapInPage]
    by_cases hpage : bufPos.toUInt64 = a.page
    · obtain ⟨hle, hend⟩ := hin (ptr, a) List.mem_cons_self hpage.symm
      have hblocks : blocksIn bufPos.toUInt64 buffer ((ptr, a) :: allocs) =
          (ptr.toUInt64.toNat - buffer.toNat, a.size.toNat) ::
            blocksIn bufPos.toUInt64 buffer allocs := by
        simp [blocksIn, hpage, LiveBlock.bytes]
      rw [hblocks] at hasc ⊢
      simp only [LiveBlock.bytes] at hle hend
      have hstart : (ptr.toUInt64 - buffer).toNat = ptr.toUInt64.toNat - buffer.toNat :=
        UInt64.toNat_sub_of_le _ _ (UInt64.le_iff_toNat_le.mpr hle)
      have hposition : (Int32.ofNat last).toInt64.toUInt64.toNat = last := toNat_ofNat_int32 hlast
      have hgap : (ptr.toUInt64 - buffer - (Int32.ofNat last).toInt64.toUInt64).toNat =
          ptr.toUInt64.toNat - buffer.toNat - last := by
        rw [UInt64.toNat_sub_of_le, hstart, hposition]
        rw [UInt64.le_iff_toNat_le, hstart, hposition]
        exact hasc.1
      have hnext : (ptr.toUInt64 - buffer + a.size).toNat =
          ptr.toUInt64.toNat - buffer.toNat + a.size.toNat := by
        rw [UInt64.toNat_add, hstart]
        simp only [pageSize_toNat] at hend
        omega
      have hnarrow : (ptr.toUInt64 - buffer + a.size).toUInt32.toInt32 =
          Int32.ofNat (ptr.toUInt64 - buffer + a.size).toNat := rfl
      rw [if_neg (not_not.mpr hpage), firstGap]
      simp only [ge_iff_le, UInt64.le_iff_toNat_le, hgap]
      split
      · rfl
      · rw [hnarrow, hnext]
        exact ih hrest (by omega) hasc.2
    · have hblocks : blocksIn bufPos.toUInt64 buffer ((ptr, a) :: allocs) =
          blocksIn bufPos.toUInt64 buffer allocs := by
        simp [blocksIn, Ne.symm hpage]
      rw [if_pos hpage, hblocks]
      exact ih hrest hlast (hblocks ▸ hasc)

/-- Blocks in the order of their addresses that are apart ascend. -/
lemma ascending_blocksIn {page buffer : UInt64} {last : Nat} {allocs : List LiveBlock}
    (hsorted : allocs.Pairwise fun e e' => compare e.1 e'.1 = .lt)
    (hin : ∀ e ∈ allocs, InPage page buffer e)
    (hhalf : ∀ e ∈ allocs, e.bytes.1 < 2 ^ 63) (hpos : ∀ e ∈ allocs, 0 < e.bytes.2)
    (hapart : allocs.Pairwise fun e e' => Apart e.bytes e'.bytes)
    (hlast : ∀ e ∈ allocs, e.2.page = page → buffer.toNat + last ≤ e.bytes.1) :
    Ascending last (blocksIn page buffer allocs) := by
  induction allocs generalizing last with
  | nil => trivial
  | cons e allocs ih =>
    obtain ⟨hfirst, hsorted⟩ := List.pairwise_cons.mp hsorted
    obtain ⟨hapart₁, hapart⟩ := List.pairwise_cons.mp hapart
    have hin' := fun e' he' => hin e' (List.mem_cons_of_mem _ he')
    have hhalf' := fun e' he' => hhalf e' (List.mem_cons_of_mem _ he')
    have hpos' := fun e' he' => hpos e' (List.mem_cons_of_mem _ he')
    by_cases hpage : e.2.page = page
    · have hblocks : blocksIn page buffer (e :: allocs) =
          (e.bytes.1 - buffer.toNat, e.bytes.2) :: blocksIn page buffer allocs := by
        simp [blocksIn, hpage]
      rw [hblocks]
      obtain ⟨hle, -⟩ := hin e List.mem_cons_self hpage
      have hstart := hlast e List.mem_cons_self hpage
      refine ⟨by omega, ih hsorted hin' hhalf' hpos' hapart fun e' he' _ => ?_⟩
      -- the next block of the page is apart and starts later
      have hlt : e.bytes.1 < e'.bytes.1 :=
        toNat_lt_of_compare (hfirst e' he') (hhalf e List.mem_cons_self) (hhalf' e' he')
      have hpos₁ := hpos' e' he'
      have := hapart₁ e' he'
      unfold Apart at this
      omega
    · have hblocks : blocksIn page buffer (e :: allocs) = blocksIn page buffer allocs := by
        simp [blocksIn, hpage]
      rw [hblocks]
      exact ih hsorted hin' hhalf' hpos' hapart fun e' he' => hlast e' (List.mem_cons_of_mem _ he')

/-! ### The invariant -/

/-- The bytes of a page. -/
def pageBytes (buffer : UInt64) : Nat × Nat := (buffer.toNat, pageSize.toNat)

/-- `new` gave a page: it lies in the lower half of the address space and meets no other page. -/
structure GivenPage (m : DefaultMemoryManager) (buffer : UInt64) : Prop where
  fits : buffer.toNat + pageSize.toNat ≤ 2 ^ 63
  apart : ∀ b ∈ m.buffers, Apart (pageBytes b) (pageBytes buffer)

/-- A block lies at a multiple of `d` in one of the pages, in front of the bump position. -/
def Located (d : Nat) (m : DefaultMemoryManager) (e : LiveBlock) : Prop :=
  ∃ buffer offset, m.buffers[e.2.page.toNat]? = some buffer ∧ e.bytes.1 = buffer.toNat + offset ∧
    offset + e.bytes.2 ≤ pageSize.toNat ∧ 0 < e.bytes.2 ∧ d ∣ offset ∧ d ∣ e.bytes.2 ∧
    e.2.page.toNat * pageSize.toNat + offset + e.bytes.2 ≤ m.bufferPos.toNat

/-- The blocks lie in the pages and apart from each other, and the bump position lies in the
last page. All positions are multiples of `d`. -/
structure Valid (d : Nat) (m : DefaultMemoryManager) : Prop where
  nonempty : 0 < m.buffers.length
  countable : m.buffers.length ≤ 2 ^ 32 + 1
  fits : ∀ b ∈ m.buffers, b.toNat + pageSize.toNat ≤ 2 ^ 63
  pages : m.buffers.Pairwise fun b b' => Apart (pageBytes b) (pageBytes b')
  pos_ge : (m.buffers.length - 1) * pageSize.toNat ≤ m.bufferPos.toNat
  pos_lt : m.bufferPos.toNat < m.buffers.length * pageSize.toNat
  dvd_pos : d ∣ m.bufferPos.toNat
  located : ∀ e ∈ m.allocs.entries, Located d m e
  apart : m.allocs.entries.Pairwise fun (e e' : LiveBlock) => Apart e.bytes e'.bytes

section

variable {d : Nat} {m : DefaultMemoryManager} {e : LiveBlock}

lemma Located.page_lt (h : Located d m e) : e.2.page.toNat < m.buffers.length := by
  obtain ⟨buffer, offset, hbuffer, -⟩ := h
  exact (List.getElem?_eq_some_iff.mp hbuffer).1

/-- More pages and a later bump position do no harm. -/
lemma Located.mono {m' : DefaultMemoryManager} (h : Located d m e) (hbuffers : m.buffers <+: m'.buffers)
    (hpos : m.bufferPos.toNat ≤ m'.bufferPos.toNat) : Located d m' e := by
  obtain ⟨buffer, offset, hbuffer, hstart, hend, hsize, hoffset, hdvd, hfront⟩ := h
  obtain ⟨more, hmore⟩ := hbuffers
  have hlt := (List.getElem?_eq_some_iff.mp hbuffer).1
  refine ⟨buffer, offset, ?_, hstart, hend, hsize, hoffset, hdvd, hfront.trans hpos⟩
  rw [← hmore, List.getElem?_append_left hlt]
  exact hbuffer

lemma Valid.numBuffers_toNat (hv : Valid d m) : m.numBuffers.toNat = m.buffers.length := by
  have hsize : UInt64.size = 2 ^ 64 := rfl
  have := hv.countable
  exact UInt64.toNat_ofNat_of_lt (by omega)

lemma Valid.page_mem (hv : Valid d m) {i : Nat} {buffer : UInt64} (hbuffer : m.buffers[i]? = some buffer) :
    i < m.buffers.length ∧ buffer.toNat + pageSize.toNat ≤ 2 ^ 63 :=
  ⟨(List.getElem?_eq_some_iff.mp hbuffer).1, hv.fits _ (List.mem_of_getElem? hbuffer)⟩

/-- Different pages are apart. -/
lemma Valid.pages_apart (hv : Valid d m) {i j : Nat} {b b' : UInt64} (hb : m.buffers[i]? = some b)
    (hb' : m.buffers[j]? = some b') (hne : i ≠ j) : Apart (pageBytes b) (pageBytes b') := by
  obtain ⟨hi, rfl⟩ := List.getElem?_eq_some_iff.mp hb
  obtain ⟨hj, rfl⟩ := List.getElem?_eq_some_iff.mp hb'
  obtain hlt | hlt := Nat.lt_or_gt_of_ne hne
  · exact List.pairwise_iff_getElem.mp hv.pages i j hi hj hlt
  · exact (List.pairwise_iff_getElem.mp hv.pages j i hj hi hlt).symm

/-- The entries of a page lie in it. -/
lemma Valid.inPage (hv : Valid d m) {page buffer : UInt64} (hbuffer : m.buffers[page.toNat]? = some buffer)
    (he : e ∈ m.allocs.entries) : InPage page buffer e := by
  intro hpage
  obtain ⟨b, offset, hb, hstart, hend, -⟩ := hv.located e he
  rw [hpage, hbuffer] at hb
  obtain rfl := Option.some.inj hb
  omega

lemma Valid.bytes_lt (hv : Valid d m) (he : e ∈ m.allocs.entries) : e.bytes.1 < 2 ^ 63 := by
  obtain ⟨b, offset, hb, hstart, hend, hsize, -⟩ := hv.located e he
  have := (hv.page_mem hb).2
  omega

lemma Valid.bytes_pos (hv : Valid d m) (he : e ∈ m.allocs.entries) : 0 < e.bytes.2 := by
  obtain ⟨b, offset, hb, hstart, hend, hsize, -⟩ := hv.located e he
  exact hsize

/-- Blocks end at multiples of `d`. -/
lemma Valid.dvd_of_page (hv : Valid d m) {page buffer : UInt64}
    (hbuffer : m.buffers[page.toNat]? = some buffer) (he : e ∈ m.allocs.entries)
    (hpage : e.2.page = page) : d ∣ e.bytes.1 - buffer.toNat + e.bytes.2 := by
  obtain ⟨b, offset, hb, hstart, -, -, hoffset, hsize, -⟩ := hv.located e he
  rw [hpage, hbuffer] at hb
  obtain rfl := Option.some.inj hb
  rw [hstart, Nat.add_sub_cancel_left]
  exact Nat.dvd_add hoffset hsize

/-- The blocks of a page ascend. -/
lemma Valid.ascending (hv : Valid d m) {page buffer : UInt64}
    (hbuffer : m.buffers[page.toNat]? = some buffer) :
    Ascending 0 (blocksIn page buffer m.allocs.entries) :=
  ascending_blocksIn m.allocs.sorted (fun _ he => hv.inPage hbuffer he) (fun _ he => hv.bytes_lt he)
    (fun _ he => hv.bytes_pos he) hv.apart fun _ he hpage => (hv.inPage hbuffer he hpage).1

/-- What is apart from the blocks of its own page is apart from all blocks. -/
lemma Valid.apart_of_page (hv : Valid d m) {page buffer : UInt64} {offset size : Nat}
    (hbuffer : m.buffers[page.toNat]? = some buffer) (hfits : offset + size ≤ pageSize.toNat)
    (hapart : ∀ b ∈ blocksIn page buffer m.allocs.entries, Apart (offset, size) b)
    (he : e ∈ m.allocs.entries) : Apart (buffer.toNat + offset, size) e.bytes := by
  by_cases hpage : e.2.page = page
  · have hrelative := hapart _ (mem_blocksIn_of_mem he hpage)
    have hin := hv.inPage hbuffer he hpage
    unfold Apart at hrelative ⊢
    omega
  · obtain ⟨b, start, hb, hstart, hend, -⟩ := hv.located e he
    have hne : page.toNat ≠ e.2.page.toNat := fun h => hpage (UInt64.toNat_inj.mp h).symm
    have hpages := hv.pages_apart hbuffer hb hne
    simp only [Apart, pageBytes] at hpages ⊢
    omega

end

/-! ### One call of `malloc` -/

/-- The entry of a new block. -/
def newBlock (buffer page offset size : UInt64) : LiveBlock := ((buffer + offset).toInt64, ⟨page, size⟩)

/-- A call has put a block of `size` bytes at `ptr`, apart from all that were there. -/
structure Allocated (d : Nat) (size ptr : UInt64) (m m' : DefaultMemoryManager) : Prop where
  valid : Valid d m'
  buffers : m.buffers <+: m'.buffers
  entries : ∃ page, m'.allocs.entries.Perm ((ptr.toInt64, ⟨page, size⟩) :: m.allocs.entries)
  apart : ∀ e ∈ m.allocs.entries, Apart (ptr.toNat, size.toNat) (LiveBlock.bytes e)

section

variable {d : Nat} {m : DefaultMemoryManager}

/-- `assign_alloc` at a place in a page that is apart from all blocks. -/
lemma Valid.assignAlloc (hv : Valid d m) {buffer page offset size : UInt64}
    (hbuffer : m.buffers[page.toNat]? = some buffer)
    (hfits : offset.toNat + size.toNat ≤ pageSize.toNat) (hsize : 0 < size.toNat)
    (hoffset : d ∣ offset.toNat) (hdvd : d ∣ size.toNat)
    (hfront : page.toNat * pageSize.toNat + offset.toNat + size.toNat ≤ m.bufferPos.toNat)
    (hapart : ∀ e ∈ m.allocs.entries, Apart (buffer.toNat + offset.toNat, size.toNat) (LiveBlock.bytes e)) :
    ∃ ptr m', assignAlloc page offset size m = .ok ptr m' ∧ Allocated d size ptr m m' ∧
      m'.buffers = m.buffers ∧ m'.bufferPos = m.bufferPos := by
  have hpageSize := pageSize_toNat
  have hpage := (hv.page_mem hbuffer).2
  have hsum : (offset + size).toNat = offset.toNat + size.toNat := by
    rw [UInt64.toNat_add]
    omega
  have hptr : (buffer + offset).toNat = buffer.toNat + offset.toNat := by
    rw [UInt64.toNat_add]
    omega
  have hin : ¬offset + size > pageSize := by
    rw [gt_iff_lt, UInt64.lt_iff_toNat_lt, hsum]
    omega
  have hkey : (newBlock buffer page offset size).bytes = (buffer.toNat + offset.toNat, size.toNat) := by
    rw [← hptr]
    rfl
  have hnew : ∀ e ∈ m.allocs.entries, e.1 ≠ (buffer + offset).toInt64 := by
    intro e he heq
    have hbytes := hv.bytes_pos he
    have hstart : (LiveBlock.bytes e).1 = buffer.toNat + offset.toNat := by
      rw [← hptr, LiveBlock.bytes, heq]
      rfl
    have := hapart e he
    unfold Apart at this
    omega
  have hperm := SortedMap.insertEntry_perm ⟨page, size⟩ hnew
  have hemplace : emplace m.allocs (buffer + offset).toInt64 ⟨page, size⟩ =
      m.allocs.insert (buffer + offset).toInt64 ⟨page, size⟩ := by
    rw [emplace, SortedMap.contains_eq_false hnew]
    rfl
  refine ⟨buffer + offset,
    { m with allocs := m.allocs.insert (buffer + offset).toInt64 ⟨page, size⟩ }, ?_, ?_, rfl, rfl⟩
  · simp only [DefaultMemoryManager.assignAlloc, if_neg hin, hbuffer, hemplace]
  · have hlocated : Located d m (newBlock buffer page offset size) := by
      refine ⟨buffer, offset.toNat, hbuffer, ?_, ?_, ?_, hoffset, ?_, ?_⟩ <;> rw [hkey]
      · exact hfits
      · exact hsize
      · exact hdvd
      · exact hfront
    refine ⟨⟨hv.nonempty, hv.countable, hv.fits, hv.pages, hv.pos_ge, hv.pos_lt, hv.dvd_pos, ?_, ?_⟩,
      List.prefix_refl _, ⟨page, hperm⟩, fun e he => hptr ▸ hapart e he⟩
    · intro e he
      obtain rfl | he := List.mem_cons.mp (hperm.mem_iff.mp he)
      · exact hlocated
      · exact hv.located e he
    · refine (hperm.pairwise_iff fun h => h.symm).mpr (List.pairwise_cons.mpr ⟨fun e he => ?_, hv.apart⟩)
      have := hapart e he
      rwa [← hkey] at this

/-- The outer loop counts the pages with 32 bits. -/
lemma findGap_eq_some {size : UInt64} {allocs : List LiveBlock} {i : Nat} {buffers : List UInt64}
    {bufPos : UInt32} {lastPos : Int32}
    (h : findGap size allocs (UInt32.ofNat i) buffers = some (bufPos, lastPos)) :
    ∃ j buffer, buffers[j]? = some buffer ∧ bufPos = UInt32.ofNat (i + j) ∧
      gapInPage bufPos buffer size 0 allocs = some lastPos := by
  induction buffers generalizing i with
  | nil => cases h
  | cons b buffers ih =>
    rw [findGap] at h
    cases hgap : gapInPage (UInt32.ofNat i) b size 0 allocs with
    | some pos =>
      rw [hgap] at h
      cases h
      exact ⟨0, b, rfl, rfl, hgap⟩
    | none =>
      rw [hgap] at h
      have hcount : UInt32.ofNat i + 1 = UInt32.ofNat (i + 1) := by
        simp [UInt32.ofNat_add]
      rw [hcount] at h
      obtain ⟨j, buffer, hbuffer, hpos, hfound⟩ := ih h
      exact ⟨j + 1, buffer, hbuffer, by rw [hpos]; congr 1; omega, hfound⟩

/-- The gap the loops find lies in a page, in front of one of its blocks. -/
lemma Valid.gap (hv : Valid d m) (hcount : m.buffers.length ≤ 2 ^ 32) {size : UInt64} {bufPos : UInt32}
    {lastPos : Int32} (hgap : findGap size m.allocs.entries 0 m.buffers = some (bufPos, lastPos)) :
    ∃ buffer e, m.buffers[bufPos.toUInt64.toNat]? = some buffer ∧
      firstGap size.toNat 0 (blocksIn bufPos.toUInt64 buffer m.allocs.entries) =
        some lastPos.toInt64.toUInt64.toNat ∧
      e ∈ m.allocs.entries ∧ e.2.page = bufPos.toUInt64 ∧
      lastPos.toInt64.toUInt64.toNat + size.toNat ≤ (LiveBlock.bytes e).1 - buffer.toNat := by
  obtain ⟨j, buffer, hj, hbufPos, hfound⟩ := findGap_eq_some (i := 0) hgap
  have hlt := (List.getElem?_eq_some_iff.mp hj).1
  have hpage : bufPos.toUInt64.toNat = j := by
    rw [hbufPos, UInt32.toNat_toUInt64, Nat.zero_add]
    exact UInt32.toNat_ofNat_of_lt (by have : UInt32.size = 2 ^ 32 := rfl; omega)
  have hbuffer : m.buffers[bufPos.toUInt64.toNat]? = some buffer := hpage ▸ hj
  have hasc := hv.ascending hbuffer
  have hloop : gapInPage bufPos buffer size (Int32.ofNat 0) m.allocs.entries =
      (firstGap size.toNat 0 (blocksIn bufPos.toUInt64 buffer m.allocs.entries)).map Int32.ofNat :=
    gapInPage_eq (fun e he => hv.inPage hbuffer he) (Nat.zero_le _) hasc
  have hzero : Int32.ofNat 0 = 0 := rfl
  rw [hzero, hfound] at hloop
  obtain ⟨g, hg, hlast⟩ := Option.map_eq_some_iff.mp hloop.symm
  obtain ⟨b, hb, hbehind⟩ := exists_behind_firstGap hasc hg
  obtain ⟨e, he, hpageOf, rfl⟩ := mem_blocksIn hb
  obtain ⟨buffer', offset, hbuffer', hstart, hend, -⟩ := hv.located e he
  rw [hpageOf, hbuffer] at hbuffer'
  obtain rfl := Option.some.inj hbuffer'
  have hpos : lastPos.toInt64.toUInt64.toNat = g := by
    rw [← hlast]
    exact toNat_ofNat_int32 (by simp only [pageSize_toNat] at hend; omega)
  rw [hpos]
  exact ⟨buffer, e, hbuffer, hg, he, hpageOf, hbehind⟩

/-- A block that fills a gap. -/
lemma Valid.malloc_gap (hv : Valid d m) (hcount : m.buffers.length ≤ 2 ^ 32) {size : UInt64}
    {bufPos : UInt32} {lastPos : Int32} (hsize : 0 < size.toNat) (hdvd : d ∣ size.toNat)
    (hgap : findGap size m.allocs.entries 0 m.buffers = some (bufPos, lastPos)) :
    ∃ ptr m', DefaultMemoryManager.assignAlloc bufPos.toUInt64 lastPos.toInt64.toUInt64 size m =
      .ok ptr m' ∧ Allocated d size ptr m m' ∧ m'.buffers = m.buffers ∧ m'.bufferPos = m.bufferPos := by
  obtain ⟨buffer, e, hbuffer, hg, he, hpageOf, hbehind⟩ := hv.gap hcount hgap
  have hasc := hv.ascending hbuffer
  obtain ⟨buffer', offset, hbuffer', hstart, hend, -, -, -, hfront⟩ := hv.located e he
  rw [hpageOf, hbuffer] at hbuffer'
  obtain rfl := Option.some.inj hbuffer'
  rw [hpageOf] at hfront
  refine hv.assignAlloc hbuffer ?_ hsize ?_ hdvd ?_ ?_
  · omega
  · refine dvd_of_firstGap (Nat.dvd_zero d) (fun b hb => ?_) hg
    obtain ⟨e', he', hpage', rfl⟩ := mem_blocksIn hb
    exact hv.dvd_of_page hbuffer he' hpage'
  · omega
  · intro e' he'
    exact hv.apart_of_page hbuffer (by omega) (fun b hb => apart_of_firstGap hasc hg hb) he'

/-- The pages grow by at most one, and not at the limit. -/
def GrowsBelow (limit : UInt64) (m m' : DefaultMemoryManager) : Prop :=
  m'.buffers = m.buffers ∨ m'.buffers.length = m.buffers.length + 1 ∧ m.numBuffers ≠ limit

/-- What `malloc` may throw here: anything but the failed check of `assign_alloc`. -/
def Refused {α : Type} (x : Mem α) (m : DefaultMemoryManager) : Prop :=
  ∃ e, x m = .error e m ∧ e ≠ .runtimeError (lit "Invalid offset")

/-- A further page, if it takes one, has room for the block. -/
lemma Valid.nextPage (hv : Valid d m) (hd : d ∣ pageSize.toNat) (hcount : m.buffers.length ≤ 2 ^ 32)
    (limit : UInt64) {size : UInt64} {new : Option UInt64} (hnew : ∀ b, new = some b → GivenPage m b)
    (hsize : size.toNat < pageSize.toNat) :
    Refused (nextPage limit new size) m ∨
      ∃ m', nextPage limit new size m = .ok () m' ∧ Valid d m' ∧ m.buffers <+: m'.buffers ∧
        m'.allocs = m.allocs ∧ GrowsBelow limit m m' ∧
        m'.bufferPos.toNat + size.toNat < m'.buffers.length * pageSize.toNat := by
  have hlt := hv.pos_lt
  simp only [pageSize_toNat] at hsize hlt
  have hbufferSize : (m.numBuffers * pageSize).toNat = m.buffers.length * pageSize.toNat := by
    rw [UInt64.toNat_mul, hv.numBuffers_toNat, pageSize_toNat]
    omega
  have hsum : (m.bufferPos + size).toNat = m.bufferPos.toNat + size.toNat := by
    rw [UInt64.toNat_add]
    omega
  unfold Refused DefaultMemoryManager.nextPage
  simp only [ge_iff_le, UInt64.le_iff_toNat_le, hbufferSize, hsum]
  split
  · split
    · exact .inl ⟨_, rfl, by decide⟩
    · rename_i hlimit
      cases new with
      | none => exact .inl ⟨_, rfl, nofun⟩
      | some buffer =>
        obtain ⟨hfits, hapart⟩ := hnew buffer rfl
        have hlength : (m.buffers ++ [buffer]).length = m.buffers.length + 1 := by simp
        refine .inr ⟨_, rfl, ⟨?_, ?_, ?_, ?_, ?_, ?_, ?_, ?_, hv.apart⟩, List.prefix_append _ _, rfl,
          .inr ⟨hlength, hlimit⟩, ?_⟩
        · rw [hlength]
          omega
        · rw [hlength]
          omega
        · intro b hb
          obtain hb | hb := List.mem_append.mp hb
          · exact hv.fits b hb
          · rw [List.mem_singleton.mp hb]
            exact hfits
        · refine List.pairwise_append.mpr ⟨hv.pages, List.pairwise_singleton _ _, fun b hb b' hb' => ?_⟩
          rw [List.mem_singleton.mp hb']
          exact hapart b hb
        · rw [hlength, hbufferSize, Nat.add_sub_cancel]
        · rw [hlength, hbufferSize, pageSize_toNat]
          omega
        · rw [hbufferSize]
          exact Nat.dvd_mul_left_of_dvd hd _
        · intro e he
          refine (hv.located e he).mono (List.prefix_append _ _) ?_
          rw [hbufferSize]
          exact hv.pos_lt.le
        · rw [hlength, hbufferSize, pageSize_toNat]
          omega
  · rename_i hroom
    exact .inr ⟨m, rfl, hv, List.prefix_refl _, rfl, .inl rfl, Nat.not_le.mp hroom⟩

/-- The last page has room behind its blocks. -/
lemma Valid.bump (hv : Valid d m) {size : UInt64} (hsize : 0 < size.toNat) (hdvd : d ∣ size.toNat)
    (hd : d ∣ pageSize.toNat)
    (hroom : m.bufferPos.toNat + size.toNat < m.buffers.length * pageSize.toNat) :
    ∃ ptr m', bump size m = .ok ptr m' ∧ Allocated d size ptr m m' ∧ m'.buffers = m.buffers ∧
      m'.bufferPos.toNat = m.bufferPos.toNat + size.toNat := by
  have hnonempty := hv.nonempty
  have hcount := hv.countable
  have hge := hv.pos_ge
  simp only [pageSize_toNat] at hroom hge
  have hlast : (m.numBuffers - 1).toNat = m.buffers.length - 1 := by
    rw [UInt64.toNat_sub_of_le, hv.numBuffers_toNat]
    · rfl
    · rw [UInt64.le_iff_toNat_le, hv.numBuffers_toNat]
      exact hnonempty
  have hstart : ((m.numBuffers - 1) * pageSize).toNat = (m.buffers.length - 1) * 1048576 := by
    rw [UInt64.toNat_mul, hlast, pageSize_toNat]
    omega
  have hoffset : (m.bufferPos - (m.numBuffers - 1) * pageSize).toNat =
      m.bufferPos.toNat - (m.buffers.length - 1) * 1048576 := by
    rw [UInt64.toNat_sub_of_le, hstart]
    rw [UInt64.le_iff_toNat_le, hstart]
    exact hge
  have hsum : (m.bufferPos + size).toNat = m.bufferPos.toNat + size.toNat := by
    rw [UInt64.toNat_add]
    omega
  have hback : (m.buffers.length - 1) * 1048576 +
      (m.bufferPos.toNat - (m.buffers.length - 1) * 1048576) = m.bufferPos.toNat := by
    omega
  set m₁ : DefaultMemoryManager := { m with bufferPos := m.bufferPos + size } with hm₁
  have hv₁ : Valid d m₁ := by
    refine ⟨hnonempty, hcount, hv.fits, hv.pages, ?_, ?_, ?_, fun e he => ?_, hv.apart⟩
    · exact hv.pos_ge.trans (by rw [hm₁, hsum]; omega)
    · rw [hm₁, hsum]
      simpa using hroom
    · rw [hm₁, hsum]
      exact Nat.dvd_add hv.dvd_pos hdvd
    · exact (hv.located e he).mono (List.prefix_refl _) (by rw [hm₁, hsum]; omega)
  obtain ⟨buffer, hbuffer⟩ : ∃ buffer, m₁.buffers[(m.numBuffers - 1).toNat]? = some buffer :=
    ⟨_, List.getElem?_eq_getElem (by rw [hlast]; exact Nat.sub_lt hnonempty Nat.one_pos)⟩
  have happart : ∀ e ∈ m₁.allocs.entries, Apart (buffer.toNat +
      (m.bufferPos - (m.numBuffers - 1) * pageSize).toNat, size.toNat) (LiveBlock.bytes e) := by
    intro e he
    refine hv₁.apart_of_page hbuffer (by simp only [pageSize_toNat]; omega) (fun b hb => ?_) he
    -- the blocks of the last page end in front of the old bump position
    obtain ⟨e', he', hpage, rfl⟩ := mem_blocksIn hb
    obtain ⟨b, offset, hb, hstart', -, -, -, -, hfront⟩ := hv.located e' he'
    rw [hpage] at hb hfront
    obtain rfl := Option.some.inj (hbuffer.symm.trans hb)
    rw [hlast, pageSize_toNat] at hfront
    refine .inr ?_
    show e'.bytes.1 - buffer.toNat + e'.bytes.2 ≤ _
    omega
  have hfits : (m.bufferPos - (m.numBuffers - 1) * pageSize).toNat + size.toNat ≤ pageSize.toNat := by
    rw [hoffset, pageSize_toNat]
    omega
  have hdvd_offset : d ∣ (m.bufferPos - (m.numBuffers - 1) * pageSize).toNat := by
    rw [hoffset]
    exact Nat.dvd_sub hv.dvd_pos (Nat.dvd_mul_left_of_dvd hd _)
  have hfront : (m.numBuffers - 1).toNat * pageSize.toNat +
      (m.bufferPos - (m.numBuffers - 1) * pageSize).toNat + size.toNat ≤ m₁.bufferPos.toNat := by
    rw [hlast, hoffset, pageSize_toNat, hback]
    exact hsum.ge
  obtain ⟨ptr, m', hok, hallocated, hbuffers, hpos⟩ :=
    hv₁.assignAlloc hbuffer hfits hsize hdvd_offset hdvd hfront happart
  refine ⟨ptr, m', hok, ⟨hallocated.valid, hallocated.buffers, hallocated.entries, hallocated.apart⟩,
    hbuffers, ?_⟩
  rw [hpos]
  exact hsum

/-- `malloc` refuses and changes nothing, or puts the block apart from all others. -/
lemma Valid.malloc (hv : Valid d m) (hd : d ∣ pageSize.toNat) (hcount : m.buffers.length ≤ 2 ^ 32)
    (limit : UInt64) {size : UInt64} {new : Option UInt64} (hnew : ∀ b, new = some b → GivenPage m b)
    (hsize : 0 < size.toNat) (hdvd : d ∣ size.toNat) :
    Refused (malloc limit new size) m ∨
      ∃ ptr m', malloc limit new size m = .ok ptr m' ∧ Allocated d size ptr m m' ∧
        GrowsBelow limit m m' := by
  unfold Refused DefaultMemoryManager.malloc
  by_cases hpage : size ≥ pageSize
  · exact .inl ⟨_, if_pos hpage, by decide⟩
  simp only [if_neg hpage]
  have hlt : size.toNat < pageSize.toNat := by
    rwa [ge_iff_le, UInt64.le_iff_toNat_le, Nat.not_le] at hpage
  cases hgap : findGap size m.allocs.entries 0 m.buffers with
  | some found =>
    obtain ⟨ptr, m', hok, hallocated, hbuffers, -⟩ := hv.malloc_gap hcount hsize hdvd hgap
    exact .inr ⟨ptr, m', hok, hallocated, .inl hbuffers⟩
  | none =>
    obtain ⟨e, herror, hne⟩ | ⟨m₁, hok, hv₁, hprefix, hallocs, hgrows, hroom⟩ :=
      hv.nextPage hd hcount limit hnew hlt
    · exact .inl ⟨e, bind_of_error herror, hne⟩
    · obtain ⟨ptr, m', hbump, hallocated, hbuffers, -⟩ := hv₁.bump hsize hdvd hd hroom
      refine .inr ⟨ptr, m', (bind_of_ok hok).trans hbump, ⟨hallocated.valid, ?_, ?_, ?_⟩, ?_⟩
      · rw [hbuffers]
        exact hprefix
      · rw [← hallocs]
        exact hallocated.entries
      · rw [← hallocs]
        exact hallocated.apart
      · unfold GrowsBelow
        rwa [hbuffers]

end

/-! ### Clients -/

/-- A block a client holds: its pointer and its size. -/
abbrev Block := UInt64 × UInt64

def Block.bytes (b : Block) : Nat × Nat := (b.1.toNat, b.2.toNat)

/-- A client asks for a positive number of bytes, a multiple of `d`, and the system may give a
further page. -/
structure Request (d : Nat) (m : DefaultMemoryManager) (new : Option UInt64) (size : UInt64) : Prop where
  positive : 0 < size.toNat
  multiple : d ∣ size.toNat
  granted : ∀ b, new = some b → GivenPage m b

/-- What a sequence of calls of `malloc` and `free` reaches, and the blocks that are live then. -/
inductive HeapRun (limit : UInt64) (d : Nat) : DefaultMemoryManager → List Block → Prop
  | create (buffer : UInt64) (fits : buffer.toNat + pageSize.toNat ≤ 2 ^ 63) :
    HeapRun limit d (create buffer) []
  | malloc {m m' : DefaultMemoryManager} {live : List Block} {new : Option UInt64} {size ptr : UInt64}
    (run : HeapRun limit d m live) (request : Request d m new size)
    (result : malloc limit new size m = .ok ptr m') : HeapRun limit d m' ((ptr, size) :: live)
  | refused {m m' : DefaultMemoryManager} {live : List Block} {new : Option UInt64} {size : UInt64}
    {e : MemoryError} (run : HeapRun limit d m live) (request : Request d m new size)
    (result : malloc limit new size m = .error e m') : HeapRun limit d m' live
  | free {m m' : DefaultMemoryManager} {live : List Block} {ptr size : UInt64}
    (run : HeapRun limit d m live) (block : (ptr, size) ∈ live)
    (result : free ptr m = .ok () m') : HeapRun limit d m' (live.erase (ptr, size))

/-- The manager is sound under a page limit. -/
structure Sound (limit : UInt64) : Prop where
  apart : ∀ {m : DefaultMemoryManager} {live : List Block}, HeapRun limit 1 m live →
    live.Pairwise fun b b' => Apart b.bytes b'.bytes
  inPage : ∀ {m : DefaultMemoryManager} {live : List Block}, HeapRun limit 1 m live → ∀ b ∈ live,
    ∃ page ∈ m.buffers, page.toNat ≤ b.1.toNat ∧
      b.1.toNat + b.2.toNat ≤ page.toNat + pageSize.toNat
  validOffset : ∀ {m m' : DefaultMemoryManager} {live : List Block} {new : Option UInt64} {size : UInt64},
    HeapRun limit 1 m live → Request 1 m new size →
    malloc limit new size m ≠ .error (.runtimeError (lit "Invalid offset")) m'
  unchanged : ∀ {m m' : DefaultMemoryManager} {live : List Block} {new : Option UInt64} {size : UInt64}
    {e : MemoryError}, HeapRun limit 1 m live → Request 1 m new size →
    malloc limit new size m = .error e m' → m' = m
  freed : ∀ {m : DefaultMemoryManager} {live : List Block} {ptr size : UInt64},
    HeapRun limit 1 m live → (ptr, size) ∈ live →
    ∃ m', free ptr m = .ok () m' ∧ m'.buffers = m.buffers ∧ m'.bufferPos = m.bufferPos ∧
      (∃ page, m.allocs.find? ptr.toInt64 = some ⟨page, size⟩) ∧
      ∀ e, e ∈ m'.allocs.entries ↔ e ∈ m.allocs.entries ∧ e.1 ≠ ptr.toInt64
  aligned : ∀ {m : DefaultMemoryManager} {live : List Block}, HeapRun limit 8 m live → ∀ b ∈ live,
    ∀ page ∈ m.buffers, page.toNat ≤ b.1.toNat → b.1.toNat < page.toNat + pageSize.toNat →
    8 ∣ b.1.toNat - page.toNat
  pages : ∀ {m : DefaultMemoryManager} {live : List Block}, HeapRun limit 1 m live →
    m.buffers.length ≤ max 1 limit.toNat

/-- The live blocks are the recorded ones. -/
structure Records (m : DefaultMemoryManager) (live : List Block) : Prop where
  nodup : live.Nodup
  mem_iff : ∀ b : Block, b ∈ live ↔ ∃ page, (b.1.toInt64, ⟨page, b.2⟩) ∈ m.allocs.entries

section

variable {d : Nat} {limit : UInt64} {m : DefaultMemoryManager} {live : List Block}

lemma valid_create (d : Nat) {buffer : UInt64} (hfits : buffer.toNat + pageSize.toNat ≤ 2 ^ 63) :
    Valid d (create buffer) where
  nonempty := Nat.one_pos
  countable := by simp [DefaultMemoryManager.create]
  fits b hb := by
    rw [List.mem_singleton.mp hb]
    exact hfits
  pages := List.pairwise_singleton _ _
  pos_ge := by simp [DefaultMemoryManager.create]
  pos_lt := by simp [DefaultMemoryManager.create]
  dvd_pos := Nat.dvd_zero d
  located e he := by cases he
  apart := .nil

lemma Valid.free (hv : Valid d m) (hrecords : Records m live) {ptr size : UInt64}
    (hb : (ptr, size) ∈ live) :
    ∃ m', free ptr m = .ok () m' ∧ Valid d m' ∧ m'.buffers = m.buffers ∧ m'.bufferPos = m.bufferPos ∧
      (∃ page, m.allocs.find? ptr.toInt64 = some ⟨page, size⟩) ∧
      ∀ e, e ∈ m'.allocs.entries ↔ e ∈ m.allocs.entries ∧ e.1 ≠ ptr.toInt64 := by
  obtain ⟨page, hpage⟩ := (hrecords.mem_iff _).mp hb
  have hfind : m.allocs.find? ptr.toInt64 = some ⟨page, size⟩ := SortedMap.find?_eq_some_iff.mpr hpage
  have hcontains : m.allocs.contains ptr.toInt64 = true := by
    rw [SortedMap.contains, hfind]
    rfl
  refine ⟨{ m with allocs := m.allocs.erase ptr.toInt64 }, if_pos hcontains, ?_, rfl, rfl,
    ⟨page, hfind⟩, fun e => SortedMap.mem_erase⟩
  refine ⟨hv.nonempty, hv.countable, hv.fits, hv.pages, hv.pos_ge, hv.pos_lt, hv.dvd_pos,
    fun e he => hv.located e (SortedMap.mem_erase.mp he).1, hv.apart.filter _⟩

lemma Records.malloc (hrecords : Records m live) {m' : DefaultMemoryManager} {ptr size : UInt64}
    (hallocated : Allocated d size ptr m m') (hsize : 0 < size.toNat) :
    Records m' ((ptr, size) :: live) := by
  obtain ⟨page, hperm⟩ := hallocated.entries
  refine ⟨List.nodup_cons.mpr ⟨fun hmem => ?_, hrecords.nodup⟩, fun b => ?_⟩
  · obtain ⟨page', hentry⟩ := (hrecords.mem_iff _).mp hmem
    have hself : Apart (ptr.toNat, size.toNat) (ptr.toNat, size.toNat) := hallocated.apart _ hentry
    exact not_apart_self hsize hself
  · rw [List.mem_cons, hrecords.mem_iff]
    constructor
    · rintro (rfl | ⟨page', hentry⟩)
      · exact ⟨page, hperm.mem_iff.mpr List.mem_cons_self⟩
      · exact ⟨page', hperm.mem_iff.mpr (List.mem_cons_of_mem _ hentry)⟩
    · rintro ⟨page', hentry⟩
      obtain heq | hentry := List.mem_cons.mp (hperm.mem_iff.mp hentry)
      · obtain ⟨hptr, hinfo⟩ := Prod.mk.inj heq
        exact .inl (Prod.ext (congrArg Int64.toUInt64 hptr) (AllocInfo.mk.inj hinfo).2)
      · exact .inr ⟨page', hentry⟩

lemma Records.free (hrecords : Records m live) {m' : DefaultMemoryManager} {ptr size : UInt64}
    (hb : (ptr, size) ∈ live)
    (hentries : ∀ e, e ∈ m'.allocs.entries ↔ e ∈ m.allocs.entries ∧ e.1 ≠ ptr.toInt64) :
    Records m' (live.erase (ptr, size)) := by
  obtain ⟨page, hpage⟩ := (hrecords.mem_iff _).mp hb
  refine ⟨hrecords.nodup.erase _, fun b => ?_⟩
  rw [hrecords.nodup.mem_erase_iff, hrecords.mem_iff]
  constructor
  · rintro ⟨hne, page', hentry⟩
    refine ⟨page', (hentries _).mpr ⟨hentry, fun hptr => hne ?_⟩⟩
    -- two entries of one key are one entry
    have hfind := SortedMap.find?_eq_some_iff.mpr hentry
    have hfind' := SortedMap.find?_eq_some_iff.mpr hpage
    have hkey : b.1.toInt64 = ptr.toInt64 := hptr
    rw [hkey, hfind'] at hfind
    have hinfo := AllocInfo.mk.inj (Option.some.inj hfind)
    exact Prod.ext (congrArg Int64.toUInt64 hptr) hinfo.2.symm
  · rintro ⟨page', hentry⟩
    obtain ⟨hentry, hne⟩ := (hentries _).mp hentry
    exact ⟨fun heq => hne (by rw [heq]), page', hentry⟩

/-- No call takes a page away. -/
abbrev KeepsPages (α : Type) (x : Mem α) : Prop := Relates (fun _ m m' => m.buffers <+: m'.buffers) α x

lemma keepsPages_assignAlloc (page offset size : UInt64) : KeepsPages _ (assignAlloc page offset size) := by
  intro m
  unfold DefaultMemoryManager.assignAlloc
  by_cases hoffset : offset + size > pageSize
  · simp only [if_pos hoffset, List.prefix_rfl]
  · rw [if_neg hoffset]
    cases m.buffers[page.toNat]? <;> exact List.prefix_rfl

lemma nextPage_cases (limit : UInt64) (new : Option UInt64) (size : UInt64) (m : DefaultMemoryManager) :
    (∃ e, nextPage limit new size m = .error e m) ∨
      ∃ pages pos, nextPage limit new size m =
        .ok () { m with buffers := m.buffers ++ pages, bufferPos := pos } := by
  unfold DefaultMemoryManager.nextPage
  dsimp only
  split
  · split
    · exact .inl ⟨_, rfl⟩
    · cases new with
      | none => exact .inl ⟨_, rfl⟩
      | some buffer => exact .inr ⟨[buffer], _, rfl⟩
  · exact .inr ⟨[], m.bufferPos, by rw [List.append_nil]⟩

lemma keepsPages_nextPage (limit : UInt64) (new : Option UInt64) (size : UInt64) :
    KeepsPages _ (nextPage limit new size) := by
  refine .intro (fun m _ m' h => ?_) (fun m e m' h => ?_)
  all_goals obtain ⟨e', herror⟩ | ⟨pages, pos, hok⟩ := nextPage_cases limit new size m
  · cases herror.symm.trans h
  · cases hok.symm.trans h
    exact List.prefix_append _ _
  · cases herror.symm.trans h
    exact List.prefix_rfl
  · cases hok.symm.trans h

lemma keepsPages_bump (size : UInt64) : KeepsPages _ (bump size) := by
  refine .intro (fun m ptr m' h => ?_) (fun m e m' h => ?_) <;> unfold bump at h <;> dsimp only at h
  · have hpages := (keepsPages_assignAlloc _ _ size).of_ok h
    exact hpages
  · have hpages := (keepsPages_assignAlloc _ _ size).of_error h
    exact hpages

lemma keepsPages_malloc (limit : UInt64) (new : Option UInt64) (size : UInt64) :
    KeepsPages _ (DefaultMemoryManager.malloc limit new size) := by
  have hcompositional : Compositional KeepsPages :=
    Relates.compositional (fun _ _ => List.prefix_rfl) List.IsPrefix.trans
  have hnew := hcompositional.bind (keepsPages_nextPage limit new size) fun _ => keepsPages_bump size
  refine .intro (fun m ptr m' h => ?_) (fun m e m' h => ?_) <;>
    unfold DefaultMemoryManager.malloc at h <;> split at h
  · cases h
  · cases hgap : findGap size m.allocs.entries 0 m.buffers <;> rw [hgap] at h
    · exact hnew.of_ok h
    · exact (keepsPages_assignAlloc _ _ size).of_ok h
  · cases h
    exact List.prefix_rfl
  · cases hgap : findGap size m.allocs.entries 0 m.buffers <;> rw [hgap] at h
    · exact hnew.of_error h
    · exact (keepsPages_assignAlloc _ _ size).of_error h

/-- The invariant of the runs as long as the page counter can count the pages. -/
lemma HeapRun.valid (hd : d ∣ pageSize.toNat) (h : HeapRun limit d m live)
    (hcount : m.buffers.length ≤ 2 ^ 32) : Valid d m ∧ Records m live := by
  induction h with
  | create buffer fits =>
    have hrecords : Records (.create buffer) [] := by
      refine ⟨.nil, fun b => ⟨nofun, ?_⟩⟩
      rintro ⟨page, hentry⟩
      cases hentry
    exact ⟨valid_create d fits, hrecords⟩
  | malloc run request result ih =>
    have hcount' := ((keepsPages_malloc _ _ _).of_ok result).length_le.trans hcount
    obtain ⟨hv, hrecords⟩ := ih hcount'
    obtain ⟨e, herror, -⟩ | ⟨ptr', m₁, hok, hallocated, -⟩ :=
      hv.malloc hd hcount' limit request.granted request.positive request.multiple
    · cases herror.symm.trans result
    · cases hok.symm.trans result
      exact ⟨hallocated.valid, hrecords.malloc hallocated request.positive⟩
  | refused run request result ih =>
    have hcount' := ((keepsPages_malloc _ _ _).of_error result).length_le.trans hcount
    obtain ⟨hv, hrecords⟩ := ih hcount'
    obtain ⟨e, herror, -⟩ | ⟨ptr', m₁, hok, -⟩ :=
      hv.malloc hd hcount' limit request.granted request.positive request.multiple
    · cases herror.symm.trans result
      exact ⟨hv, hrecords⟩
    · cases hok.symm.trans result
  | @free m m' live ptr size run block result ih =>
    have hbuffers : m'.buffers = m.buffers := by
      simp only [DefaultMemoryManager.free] at result
      split at result
      · cases result
        rfl
      · cases result
    obtain ⟨hv, hrecords⟩ := ih (hbuffers ▸ hcount)
    obtain ⟨m₁, hok, hv₁, -, -, -, hentries⟩ := hv.free hrecords block
    cases hok.symm.trans result
    exact ⟨hv₁, hrecords.free block hentries⟩

/-- Under a limit that the page counter can count to, there are no more pages than that. -/
lemma HeapRun.length_le (hd : d ∣ pageSize.toNat) (hlimit : 1 ≤ limit.toNat) (hcounter : limit.toNat ≤ 2 ^ 32)
    (h : HeapRun limit d m live) : m.buffers.length ≤ limit.toNat := by
  induction h with
  | create buffer fits => exact hlimit
  | malloc run request result ih =>
    obtain ⟨hv, -⟩ := run.valid hd (ih.trans hcounter)
    obtain ⟨e, herror, -⟩ | ⟨ptr', m₁, hok, -, hgrows⟩ :=
      hv.malloc hd (ih.trans hcounter) limit request.granted request.positive request.multiple
    · cases herror.symm.trans result
    · cases hok.symm.trans result
      obtain hbuffers | ⟨hbuffers, hne⟩ := hgrows
      · rwa [hbuffers]
      · -- below the limit the equality test has not yet been passed
        have hne' : _ ≠ limit.toNat := fun heq =>
          hne (UInt64.toNat_inj.mp (hv.numBuffers_toNat.trans heq))
        rw [hbuffers]
        omega
  | refused run request result ih =>
    obtain ⟨hv, -⟩ := run.valid hd (ih.trans hcounter)
    obtain ⟨e, herror, -⟩ | ⟨ptr', m₁, hok, -⟩ :=
      hv.malloc hd (ih.trans hcounter) limit request.granted request.positive request.multiple
    · cases herror.symm.trans result
      exact ih
    · cases hok.symm.trans result
  | free run block result ih =>
    obtain ⟨hv, hrecords⟩ := run.valid hd (ih.trans hcounter)
    obtain ⟨m₁, hok, -, hbuffers, -⟩ := hv.free hrecords block
    cases hok.symm.trans result
    exact hbuffers ▸ ih

/-- The invariant of the runs under such a limit. -/
lemma HeapRun.valid_of_limit (hd : d ∣ pageSize.toNat) (hlimit : 1 ≤ limit.toNat)
    (hcounter : limit.toNat ≤ 2 ^ 32) (h : HeapRun limit d m live) :
    Valid d m ∧ Records m live ∧ m.buffers.length ≤ limit.toNat := by
  have hlength := h.length_le hd hlimit hcounter
  obtain ⟨hv, hrecords⟩ := h.valid hd (hlength.trans hcounter)
  exact ⟨hv, hrecords, hlength⟩

/-- A live block lies in a page. -/
lemma Located.inPage {e : LiveBlock} (h : Located d m e) :
    ∃ page ∈ m.buffers, page.toNat ≤ e.bytes.1 ∧ e.bytes.1 + e.bytes.2 ≤ page.toNat + pageSize.toNat ∧
      d ∣ e.bytes.1 - page.toNat := by
  obtain ⟨buffer, offset, hbuffer, hstart, hend, -, hoffset, -⟩ := h
  refine ⟨buffer, List.mem_of_getElem? hbuffer, by omega, by omega, ?_⟩
  rwa [hstart, Nat.add_sub_cancel_left]

/-- Only one page contains an address. -/
lemma Valid.page_unique (hv : Valid d m) {a : Nat} {page page' : UInt64} (hpage : page ∈ m.buffers)
    (hpage' : page' ∈ m.buffers) (ha : page.toNat ≤ a ∧ a < page.toNat + pageSize.toNat)
    (ha' : page'.toNat ≤ a ∧ a < page'.toNat + pageSize.toNat) : page = page' := by
  obtain ⟨i, hi⟩ := List.getElem?_of_mem hpage
  obtain ⟨j, hj⟩ := List.getElem?_of_mem hpage'
  by_contra hne
  have hij : i ≠ j := by
    rintro rfl
    exact hne (Option.some.inj (hi.symm.trans hj))
  have := hv.pages_apart hi hj hij
  simp only [Apart, pageBytes] at this
  omega

lemma sound_of_limit (hlimit : 1 ≤ limit.toNat) (hcounter : limit.toNat ≤ 2 ^ 32) : Sound limit where
  apart {m live} h := by
    obtain ⟨hv, hrecords, -⟩ := h.valid_of_limit (Nat.one_dvd _) hlimit hcounter
    refine hrecords.nodup.pairwise_of_forall_ne fun b hb b' hb' hne => ?_
    obtain ⟨page, hentry⟩ := (hrecords.mem_iff b).mp hb
    obtain ⟨page', hentry'⟩ := (hrecords.mem_iff b').mp hb'
    have hsymm : Std.Symm fun e e' : LiveBlock => Apart e.bytes e'.bytes := ⟨fun _ _ => Apart.symm⟩
    refine hv.apart.forall hentry hentry' fun heq => hne ?_
    obtain ⟨hptr, hinfo⟩ := Prod.mk.inj heq
    exact Prod.ext (congrArg Int64.toUInt64 hptr) (AllocInfo.mk.inj hinfo).2
  inPage {m live} h b hb := by
    obtain ⟨hv, hrecords, -⟩ := h.valid_of_limit (Nat.one_dvd _) hlimit hcounter
    obtain ⟨page, hentry⟩ := (hrecords.mem_iff b).mp hb
    obtain ⟨buffer, hbuffer, hle, hend, -⟩ := (hv.located _ hentry).inPage
    exact ⟨buffer, hbuffer, hle, hend⟩
  validOffset {m m' live new size} h request := by
    obtain ⟨hv, -, hlength⟩ := h.valid_of_limit (Nat.one_dvd _) hlimit hcounter
    obtain ⟨e, herror, hne⟩ | ⟨ptr, m₁, hok, -⟩ := hv.malloc (Nat.one_dvd _)
      (hlength.trans hcounter) limit request.granted request.positive request.multiple
    · rw [herror]
      rintro heq
      cases heq
      exact hne rfl
    · rw [hok]
      nofun
  unchanged {m m' live new size e} h request result := by
    obtain ⟨hv, -, hlength⟩ := h.valid_of_limit (Nat.one_dvd _) hlimit hcounter
    obtain ⟨e', herror, -⟩ | ⟨ptr, m₁, hok, -⟩ := hv.malloc (Nat.one_dvd _)
      (hlength.trans hcounter) limit request.granted request.positive request.multiple
    · cases herror.symm.trans result
      rfl
    · cases hok.symm.trans result
  freed {m live ptr size} h hb := by
    obtain ⟨hv, hrecords, -⟩ := h.valid_of_limit (Nat.one_dvd _) hlimit hcounter
    obtain ⟨m', hok, -, hbuffers, hpos, hfind, hentries⟩ := hv.free hrecords hb
    exact ⟨m', hok, hbuffers, hpos, hfind, hentries⟩
  aligned {m live} h b hb page hpage hle hlt := by
    obtain ⟨hv, hrecords, -⟩ := h.valid_of_limit (by decide) hlimit hcounter
    obtain ⟨_, hentry⟩ := (hrecords.mem_iff b).mp hb
    obtain ⟨buffer, hbuffer, hle', hend, hdvd⟩ := (hv.located _ hentry).inPage
    have hpos : 0 < b.2.toNat := hv.bytes_pos hentry
    have hend' : b.1.toNat + b.2.toNat ≤ buffer.toNat + pageSize.toNat := hend
    have hsame : page = buffer :=
      hv.page_unique hpage hbuffer ⟨hle, hlt⟩ ⟨hle', by omega⟩
    exact hsame ▸ hdvd
  pages {m live} h := by
    obtain ⟨-, -, hlength⟩ := h.valid_of_limit (Nat.one_dvd _) hlimit hcounter
    omega

end

/-! ### Where the limit fails -/

/-- A block that leaves no room in its page. -/
def bigSize : UInt64 := pageSize - 1

@[simp] lemma bigSize_toNat : bigSize.toNat = 1048575 := rfl

/-- The `i`-th page the system gives. -/
def pageAt (i : Nat) : UInt64 := .ofNat ((i + 1) * 1048576)

lemma pageAt_toNat {i : Nat} (hi : i ≤ 2 ^ 32) : (pageAt i).toNat = (i + 1) * 1048576 :=
  UInt64.toNat_ofNat_of_lt (by have : UInt64.size = 2 ^ 64 := rfl; omega)

lemma length_pages (k : Nat) : ((List.range k).map pageAt).length = k := by
  simp

/-- The first `k` pages hold a block each that leaves no room. -/
def FullPages (k : Nat) (m : DefaultMemoryManager) : Prop :=
  ∀ i < k, ∃ e ∈ m.allocs.entries, e.2.page.toNat = i ∧ e.2.size = bigSize

/-- The last page is empty, the `k` pages before it are full. -/
structure Filling (k : Nat) (m : DefaultMemoryManager) (live : List Block) : Prop where
  valid : Valid 1 m
  records : Records m live
  buffers : m.buffers = (List.range (k + 1)).map pageAt
  pos : m.bufferPos.toNat = k * 1048576
  full : FullPages k m

/-- All `k` pages are full. -/
structure Crowded (k : Nat) (m : DefaultMemoryManager) (live : List Block) : Prop where
  valid : Valid 1 m
  records : Records m live
  buffers : m.buffers = (List.range k).map pageAt
  pos : m.bufferPos.toNat + 1 = k * 1048576
  full : FullPages k m

section

variable {limit : UInt64} {k : Nat} {m : DefaultMemoryManager} {live : List Block}

lemma Crowded.length (h : Crowded k m live) : m.buffers.length = k := by
  rw [h.buffers, length_pages]

/-- There is no second big block in a page. -/
lemma not_apart_of_page {e e' : LiveBlock} (he : Located 1 m e) (he' : Located 1 m e')
    (hpage : e.2.page = e'.2.page) (hsize : e.2.size = bigSize) (hsize' : e'.2.size = bigSize) :
    ¬Apart e.bytes e'.bytes := by
  obtain ⟨buffer, offset, hbuffer, hstart, hend, -⟩ := he
  obtain ⟨buffer', offset', hbuffer', hstart', hend', -⟩ := he'
  rw [hpage, hbuffer'] at hbuffer
  obtain rfl := Option.some.inj hbuffer
  have hbytes : e.bytes.2 = 1048575 := by rw [LiveBlock.bytes, hsize]; rfl
  have hbytes' : e'.bytes.2 = 1048575 := by rw [LiveBlock.bytes, hsize']; rfl
  simp only [Apart, pageSize_toNat] at *
  omega

/-- A further big block comes to lie in a further page. -/
lemma FullPages.le_page (hfull : FullPages k m) {m' : DefaultMemoryManager} {ptr page : UInt64}
    (hallocated : Allocated 1 bigSize ptr m m')
    (hperm : m'.allocs.entries.Perm ((ptr.toInt64, ⟨page, bigSize⟩) :: m.allocs.entries)) :
    k ≤ page.toNat := by
  by_contra hlt
  obtain ⟨e, he, hpage, hsize⟩ := hfull page.toNat (by omega)
  have hnew := hallocated.valid.located _ (hperm.mem_iff.mpr List.mem_cons_self)
  have hold := hallocated.valid.located _ (hperm.mem_iff.mpr (List.mem_cons_of_mem _ he))
  exact not_apart_of_page hnew hold (UInt64.toNat_inj.mp hpage.symm) rfl hsize (hallocated.apart e he)

/-- The empty page takes a big block. -/
lemma Filling.bump (h : Filling k m live) :
    ∃ ptr m', bump bigSize m = .ok ptr m' ∧ Crowded (k + 1) m' ((ptr, bigSize) :: live) := by
  have hlength : m.buffers.length = k + 1 := by rw [h.buffers, length_pages]
  have hroom : m.bufferPos.toNat + bigSize.toNat < m.buffers.length * pageSize.toNat := by
    rw [h.pos, hlength, bigSize_toNat, pageSize_toNat]
    omega
  obtain ⟨ptr, m', hok, hallocated, hbuffers, hpos⟩ :=
    h.valid.bump (by decide) (Nat.one_dvd _) (Nat.one_dvd _) hroom
  refine ⟨ptr, m', hok, hallocated.valid, h.records.malloc hallocated (by decide), ?_, ?_, ?_⟩
  · rw [hbuffers, h.buffers]
  · rw [hpos, h.pos, bigSize_toNat]
    omega
  · obtain ⟨page, hperm⟩ := hallocated.entries
    intro i hi
    obtain hlt | heq := Nat.lt_succ_iff_lt_or_eq.mp hi
    · obtain ⟨e, he, hpage, hsize⟩ := h.full i hlt
      exact ⟨e, hperm.mem_iff.mpr (List.mem_cons_of_mem _ he), hpage, hsize⟩
    · have hmem := hperm.mem_iff.mpr List.mem_cons_self
      have hge := h.full.le_page hallocated hperm
      have hlt := (hallocated.valid.located _ hmem).page_lt
      rw [hbuffers, hlength] at hlt
      have hpage : page.toNat = i := by
        rw [heq]
        exact Nat.le_antisymm (Nat.lt_succ_iff.mp hlt) hge
      exact ⟨_, hmem, hpage, rfl⟩

lemma givenPage_pageAt (hbuffers : m.buffers = (List.range k).map pageAt) (hk : k ≤ 2 ^ 32) :
    GivenPage m (pageAt k) := by
  refine ⟨?_, fun b hb => ?_⟩
  · rw [pageAt_toNat hk, pageSize_toNat]
    omega
  · rw [hbuffers] at hb
    obtain ⟨i, hi, rfl⟩ := List.mem_map.mp hb
    have hlt := List.mem_range.mp hi
    refine .inl ?_
    simp only [pageBytes, pageSize_toNat, pageAt_toNat hk, pageAt_toNat (hlt.le.trans hk)]
    omega

/-- FullPages pages have no gap, as long as the page counter does not overflow. -/
lemma Crowded.findGap_eq_none (h : Crowded k m live) (hk : k ≤ 2 ^ 32) :
    findGap bigSize m.allocs.entries 0 m.buffers = none := by
  cases hgap : findGap bigSize m.allocs.entries 0 m.buffers with
  | none => rfl
  | some found =>
    obtain ⟨ptr, m', -, hallocated, hbuffers, -⟩ :=
      h.valid.malloc_gap (h.length ▸ hk) (by decide) (Nat.one_dvd _) hgap
    obtain ⟨page, hperm⟩ := hallocated.entries
    have hge := h.full.le_page hallocated hperm
    have hlt := (hallocated.valid.located _ (hperm.mem_iff.mpr List.mem_cons_self)).page_lt
    rw [hbuffers, h.length] at hlt
    exact absurd hlt (Nat.not_lt.mpr hge)

/-- When all pages are full, a further one is taken unless their number is the limit. -/
lemma Crowded.exists_nextPage (h : Crowded k m live) (hk : k ≤ 2 ^ 32) (hlimit : k ≠ limit.toNat) :
    ∃ m', nextPage limit (some (pageAt k)) bigSize m = .ok () m' ∧ Filling k m' live := by
  have hnum : m.numBuffers.toNat = k := h.valid.numBuffers_toNat.trans h.length
  have hbufferSize : (m.numBuffers * pageSize).toNat = k * 1048576 := by
    rw [UInt64.toNat_mul, hnum, pageSize_toNat]
    omega
  have hpos := h.pos
  have hsum : (m.bufferPos + bigSize).toNat = m.bufferPos.toNat + 1048575 := by
    rw [UInt64.toNat_add, bigSize_toNat]
    omega
  have hnonempty := h.length ▸ h.valid.nonempty
  have hexhausted : m.bufferPos + bigSize ≥ m.numBuffers * pageSize := by
    rw [ge_iff_le, UInt64.le_iff_toNat_le, hbufferSize, hsum]
    omega
  have hne : m.numBuffers ≠ limit := fun heq => hlimit (hnum.symm.trans (congrArg UInt64.toNat heq))
  have hok : nextPage limit (some (pageAt k)) bigSize m =
      .ok () { m with buffers := m.buffers ++ [pageAt k], bufferPos := m.numBuffers * pageSize } := by
    simp only [DefaultMemoryManager.nextPage, if_pos hexhausted, if_neg hne]
  have hnew : ∀ b, some (pageAt k) = some b → GivenPage m b :=
    fun b hb => Option.some.inj hb ▸ givenPage_pageAt h.buffers hk
  have hsmall : bigSize.toNat < pageSize.toNat := by decide
  obtain ⟨e, herror, -⟩ | ⟨m', hok', hvalid, -⟩ :=
    h.valid.nextPage (Nat.one_dvd _) (h.length ▸ hk) limit hnew hsmall
  · cases herror.symm.trans hok
  · cases hok'.symm.trans hok
    refine ⟨_, hok, hvalid, ⟨h.records.nodup, h.records.mem_iff⟩, ?_, hbufferSize, h.full⟩
    rw [List.range_succ, List.map_append, ← h.buffers]
    rfl

/-- Requests for big blocks fill page after page. -/
lemma exists_crowded (k : Nat) (hk : k ≤ 2 ^ 32) (hlimit : ∀ j, 1 ≤ j → j ≤ k → j ≠ limit.toNat) :
    ∃ m live, HeapRun limit 1 m live ∧ Crowded (k + 1) m live := by
  induction k with
  | zero =>
    have hfits : (pageAt 0).toNat + pageSize.toNat ≤ 2 ^ 63 := by decide
    have hfilling : Filling 0 (.create (pageAt 0)) [] := by
      refine ⟨valid_create 1 hfits, ⟨.nil, fun b => ⟨nofun, ?_⟩⟩, rfl, rfl, fun i hi => absurd hi (Nat.not_lt_zero i)⟩
      rintro ⟨page, hentry⟩
      cases hentry
    obtain ⟨ptr, m', hbump, hcrowded⟩ := hfilling.bump
    have hroom : nextPage limit none bigSize (.create (pageAt 0)) = .ok () (.create (pageAt 0)) := by
      have hfree : ¬(create (pageAt 0)).bufferPos + bigSize ≥ (create (pageAt 0)).numBuffers * pageSize := by
        decide
      simp only [nextPage, if_neg hfree]
    have hresult : malloc limit none bigSize (.create (pageAt 0)) = .ok ptr m' :=
      (bind_of_ok hroom).trans hbump
    have hrequest : Request 1 (.create (pageAt 0)) none bigSize := by
      refine ⟨by decide, Nat.one_dvd _, fun b hb => ?_⟩
      cases hb
    exact ⟨m', _, .malloc (.create _ hfits) hrequest hresult, hcrowded⟩
  | succ k ih =>
    obtain ⟨m, live, hrun, hcrowded⟩ := ih (by omega) fun j hj hjk => hlimit j hj (by omega)
    obtain ⟨m₁, hnext, hfilling⟩ := hcrowded.exists_nextPage hk (hlimit (k + 1) (by omega) (Nat.le_refl _))
    obtain ⟨ptr, m', hbump, hcrowded'⟩ := hfilling.bump
    have hresult : malloc limit (some (pageAt (k + 1))) bigSize m = .ok ptr m' := by
      have hsmall : ¬bigSize ≥ pageSize := by decide
      simp only [DefaultMemoryManager.malloc, if_neg hsmall, hcrowded.findGap_eq_none hk]
      exact (bind_of_ok hnext).trans hbump
    have hrequest : Request 1 m (some (pageAt (k + 1))) bigSize :=
      ⟨by decide, Nat.one_dvd _, fun b hb => Option.some.inj hb ▸ givenPage_pageAt hcrowded.buffers hk⟩
    exact ⟨m', _, .malloc hrun hrequest hresult, hcrowded'⟩

end

/-- With a limit of 0 the equality test never stops the pages. -/
lemma not_sound_zero : ¬Sound 0 := by
  intro h
  have hlimit : ∀ j, 1 ≤ j → j ≤ 1 → j ≠ (0 : UInt64).toNat := by
    intro j hj _
    show j ≠ 0
    omega
  obtain ⟨m, live, hrun, hcrowded⟩ := exists_crowded 1 (by decide) hlimit
  have hpages := h.pages hrun
  rw [hcrowded.length] at hpages
  exact absurd hpages (by decide)

/-- The inner loop on a page behind the one it takes it for: the distance wraps around. -/
lemma gapInPage_wraps {bufPos : UInt32} {buffer size : UInt64} {allocs : List LiveBlock}
    (hsize : size.toNat ≤ 2 ^ 62) (hbuffer : buffer.toNat ≤ 2 ^ 63)
    (hbehind : ∀ e ∈ allocs, e.2.page = bufPos.toUInt64 → e.bytes.1 < buffer.toNat)
    (hexists : ∃ e ∈ allocs, e.2.page = bufPos.toUInt64) :
    gapInPage bufPos buffer size 0 allocs = some 0 := by
  induction allocs with
  | nil =>
    obtain ⟨e, he, -⟩ := hexists
    cases he
  | cons e allocs ih =>
    obtain ⟨ptr, a⟩ := e
    rw [gapInPage]
    by_cases hpage : bufPos.toUInt64 = a.page
    · have hlt : ptr.toUInt64.toNat < buffer.toNat := hbehind (ptr, a) List.mem_cons_self hpage.symm
      have hzero : (0 : Int32).toInt64.toUInt64 = 0 := rfl
      have hgap : size ≤ ptr.toUInt64 - buffer - 0 := by
        rw [UInt64.le_iff_toNat_le, UInt64.sub_zero, UInt64.toNat_sub]
        omega
      rw [if_neg (not_not.mpr hpage), hzero, if_pos hgap]
    · rw [if_pos hpage]
      refine ih (fun e he => hbehind e (List.mem_cons_of_mem _ he)) ?_
      obtain ⟨e, he, hpageOf⟩ := hexists
      obtain rfl | he := List.mem_cons.mp he
      · exact absurd hpageOf.symm hpage
      · exact ⟨e, he, hpageOf⟩

lemma gapInPage_of_findGap {size : UInt64} {allocs : List LiveBlock} {i : Nat} {buffers : List UInt64}
    (h : findGap size allocs (UInt32.ofNat i) buffers = none) {j : Nat} {buffer : UInt64}
    (hbuffer : buffers[j]? = some buffer) :
    gapInPage (UInt32.ofNat (i + j)) buffer size 0 allocs = none := by
  induction buffers generalizing i j with
  | nil => cases hbuffer
  | cons b buffers ih =>
    rw [findGap] at h
    cases hgap : gapInPage (UInt32.ofNat i) b size 0 allocs with
    | some pos =>
      rw [hgap] at h
      cases h
    | none =>
      rw [hgap] at h
      cases j with
      | zero =>
        obtain rfl := Option.some.inj hbuffer
        exact hgap
      | succ j =>
        have hcount : UInt32.ofNat i + 1 = UInt32.ofNat (i + 1) := by
          simp [UInt32.ofNat_add]
        rw [hcount] at h
        have hrest := ih h hbuffer
        rwa [Nat.add_right_comm] at hrest

/-- The page counter takes the page behind the first `2 ^ 32` pages for the first one. -/
lemma Crowded.findGap_ne_none {m : DefaultMemoryManager} {live : List Block}
    (h : Crowded (2 ^ 32 + 1) m live) : findGap bigSize m.allocs.entries 0 m.buffers ≠ none := by
  intro hnone
  have hlast : m.buffers[2 ^ 32]? = some (pageAt (2 ^ 32)) := by
    rw [h.buffers, List.getElem?_map, List.getElem?_range (by omega)]
    rfl
  have hfirst : m.buffers[0]? = some (pageAt 0) := by
    rw [h.buffers, List.getElem?_map, List.getElem?_range (by omega)]
    rfl
  have hmissed := gapInPage_of_findGap (i := 0) hnone hlast
  have hpageAt : (pageAt (2 ^ 32)).toNat = (2 ^ 32 + 1) * 1048576 := pageAt_toNat (Nat.le_refl _)
  have hcounter : UInt32.ofNat (0 + 2 ^ 32) = 0 := by decide
  rw [hcounter] at hmissed
  have hwraps : gapInPage 0 (pageAt (2 ^ 32)) bigSize 0 m.allocs.entries = some 0 := by
    refine gapInPage_wraps (by decide) (by rw [hpageAt]; omega) (fun e he hpage => ?_) ?_
    · obtain ⟨buffer, offset, hbuffer, hstart, hend, -⟩ := h.valid.located e he
      have hzero : e.2.page.toNat = 0 := by rw [hpage]; rfl
      rw [hzero, hfirst] at hbuffer
      obtain rfl := Option.some.inj hbuffer
      have hpageZero : (pageAt 0).toNat = 1048576 := rfl
      rw [pageSize_toNat] at hend
      omega
    · obtain ⟨e, he, hpage, -⟩ := h.full 0 (by omega)
      exact ⟨e, he, UInt64.toNat_inj.mp hpage⟩
  cases hmissed.symm.trans hwraps

/-- No place in a full page is apart from its block. -/
lemma Crowded.no_room {k : Nat} {m : DefaultMemoryManager} {live : List Block} (h : Crowded k m live)
    {ptr : UInt64} (hin : ∃ page ∈ m.buffers, page.toNat ≤ ptr.toNat ∧
      ptr.toNat + bigSize.toNat ≤ page.toNat + pageSize.toNat)
    (hapart : List.Pairwise (fun b b' => Apart (Block.bytes b) (Block.bytes b'))
      ((ptr, bigSize) :: live)) : False := by
  obtain ⟨page, hpage, hle, hend⟩ := hin
  obtain ⟨i, hi⟩ := List.getElem?_of_mem hpage
  have hlt := (List.getElem?_eq_some_iff.mp hi).1
  rw [h.length] at hlt
  obtain ⟨e, he, hpageOf, hsize⟩ := h.full i hlt
  obtain ⟨buffer, offset, hbuffer, hstart, hend', -⟩ := h.valid.located e he
  rw [hpageOf, hi] at hbuffer
  obtain rfl := Option.some.inj hbuffer
  obtain ⟨idx, info, size⟩ := e
  obtain rfl : size = bigSize := hsize
  have hlive : (idx.toUInt64, bigSize) ∈ live := (h.records.mem_iff _).mpr ⟨info, he⟩
  have hnew := (List.pairwise_cons.mp hapart).1 _ hlive
  simp only [Apart, Block.bytes, LiveBlock.bytes, bigSize_toNat, pageSize_toNat] at *
  omega

/-- With a limit above `2 ^ 32` the pages are filled until the page counter overflows. -/
lemma not_sound_large {limit : UInt64} (hlimit : 2 ^ 32 < limit.toNat) : ¬Sound limit := by
  intro h
  have hbelow : ∀ j, 1 ≤ j → j ≤ 2 ^ 32 → j ≠ limit.toNat := by
    intro j _ hj
    omega
  obtain ⟨m, live, hrun, hcrowded⟩ := exists_crowded (2 ^ 32) (Nat.le_refl _) hbelow
  have hrequest : Request 1 m none bigSize := by
    refine ⟨by decide, Nat.one_dvd _, fun b hb => ?_⟩
    cases hb
  cases hgap : findGap bigSize m.allocs.entries 0 m.buffers with
  | none => exact hcrowded.findGap_ne_none hgap
  | some found =>
    obtain ⟨bufPos, lastPos⟩ := found
    have hmalloc : malloc limit none bigSize m =
        assignAlloc bufPos.toUInt64 lastPos.toInt64.toUInt64 bigSize m := by
      have hsmall : ¬bigSize ≥ pageSize := by decide
      simp only [DefaultMemoryManager.malloc, if_neg hsmall, hgap]
    have hindex : bufPos.toUInt64.toNat < m.buffers.length := by
      rw [hcrowded.length, UInt32.toNat_toUInt64]
      exact Nat.lt_succ_of_lt bufPos.toNat_lt
    obtain ⟨buffer, hbuffer⟩ : ∃ buffer, m.buffers[bufPos.toUInt64.toNat]? = some buffer :=
      ⟨_, List.getElem?_eq_getElem hindex⟩
    unfold assignAlloc at hmalloc
    split at hmalloc
    · exact h.validOffset hrun hrequest hmalloc
    · simp only [hbuffer] at hmalloc
      have hrun' := HeapRun.malloc hrun hrequest hmalloc
      exact hcrowded.no_room (h.inPage hrun' _ List.mem_cons_self) (h.apart hrun')

/-- The manager is sound exactly under the limits from 1 to `2 ^ 32`. -/
theorem defaultMemoryManager_sound_iff (limit : UInt64) :
    Sound limit ↔ 1 ≤ limit.toNat ∧ limit.toNat ≤ 2 ^ 32 := by
  constructor
  · intro h
    constructor
    · by_contra hzero
      have hlimit : limit = 0 := UInt64.toNat_inj.mp (by simpa using hzero)
      exact not_sound_zero (hlimit ▸ h)
    · by_contra hlarge
      exact not_sound_large (Nat.not_le.mp hlarge) h
  · rintro ⟨hlimit, hcounter⟩
    exact sound_of_limit hlimit hcounter

/-- Two blocks take two pages although no page is allowed. -/
theorem defaultMemoryManager_noLimit_false :
    ∃ m live, HeapRun 0 1 m live ∧ m.buffers = [1048576, 2097152] ∧
      ¬m.buffers.length ≤ max 1 (0 : UInt64).toNat := by
  have hlimit : ∀ j, 1 ≤ j → j ≤ 1 → j ≠ (0 : UInt64).toNat := by
    intro j hj _
    show j ≠ 0
    omega
  obtain ⟨m, live, hrun, hcrowded⟩ := exists_crowded 1 (by decide) hlimit
  refine ⟨m, live, hrun, hcrowded.buffers, ?_⟩
  rw [hcrowded.length]
  decide

end ContractPython.Proofs
