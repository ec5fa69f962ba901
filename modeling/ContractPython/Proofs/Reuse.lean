import ContractPython.Proofs.Allocator

/-!
# Reuse of freed memory

The loops of `malloc` look at the gaps in front of the live blocks, and the bump position never moves
back: the place of the last block of a page is not found again.
-/

namespace ContractPython.Proofs

open FirstFit Program DefaultMemoryManager

/-- In some page there are `n` free bytes in front of a live block. -/
def HasGap (buffers : List UInt64) (live : List Block) (n : Nat) : Prop :=
  ∃ page ∈ buffers, ∃ q, ∃ b ∈ live, page.toNat ≤ q ∧ q + n ≤ b.1.toNat ∧
    b.1.toNat < page.toNat + pageSize.toNat ∧ ∀ b' ∈ live, Apart (q, n) (Block.bytes b')

/-- Where a block of `size` bytes can go: into a gap, behind the bump position, or into a further
page. -/
def Space (limit : UInt64) (new : Option UInt64) (m : DefaultMemoryManager) (live : List Block)
    (size : UInt64) : Prop :=
  HasGap m.buffers live size.toNat ∨
    m.bufferPos.toNat + size.toNat < m.buffers.length * pageSize.toNat ∨
    m.numBuffers ≠ limit ∧ new ≠ none

section

variable {d : Nat} {limit : UInt64} {new : Option UInt64} {m : DefaultMemoryManager} {live : List Block}
  {size : UInt64}

/-- The loops of `malloc` find a gap when there is one. -/
lemma findGap_ne_none_iff (hv : Valid d m) (hrecords : Records m live) (hcount : m.buffers.length ≤ 2 ^ 32)
    (hsize : 0 < size.toNat) :
    findGap size m.allocs.entries 0 m.buffers ≠ none ↔ HasGap m.buffers live size.toNat := by
  constructor
  · intro hfound
    obtain ⟨⟨bufPos, lastPos⟩, hgap⟩ := Option.ne_none_iff_exists'.mp hfound
    obtain ⟨buffer, e, hbuffer, hg, he, hpage, hbehind⟩ := hv.gap hcount hgap
    obtain ⟨ptr, page, esize⟩ := e
    have hasc := hv.ascending hbuffer
    obtain ⟨hle, hend⟩ := hv.inPage hbuffer he hpage
    have hpos := hv.bytes_pos he
    simp only [LiveBlock.bytes] at hbehind hle hend hpos
    refine ⟨buffer, List.mem_of_getElem? hbuffer, buffer.toNat + lastPos.toInt64.toUInt64.toNat,
      (ptr.toUInt64, esize), (hrecords.mem_iff _).mpr ⟨page, he⟩, Nat.le_add_right _ _, ?_, ?_, ?_⟩
    · show _ ≤ ptr.toUInt64.toNat
      omega
    · show ptr.toUInt64.toNat < _
      omega
    · intro b' hb'
      obtain ⟨page', he'⟩ := (hrecords.mem_iff _).mp hb'
      exact hv.apart_of_page hbuffer (by omega) (fun b hb => apart_of_firstGap hasc hg hb) he'
  · rintro ⟨page, hpage, q, b, hb, hle, hroom, hlt, hfree⟩ hnone
    obtain ⟨p, he⟩ := (hrecords.mem_iff b).mp hb
    obtain ⟨buffer, offset, hbuffer, hstart, hend, hpos, -⟩ := hv.located _ he
    have hbuffer : m.buffers[p.toNat]? = some buffer := hbuffer
    have hstart : b.1.toNat = buffer.toNat + offset := hstart
    have hend : offset + b.2.toNat ≤ pageSize.toNat := hend
    have hpos : 0 < b.2.toNat := hpos
    -- the page of the free bytes is that of the block behind them
    have hsame : page = buffer :=
      hv.page_unique hpage (List.mem_of_getElem? hbuffer) ⟨by omega, hlt⟩ ⟨by omega, by omega⟩
    subst hsame
    have hindex := (List.getElem?_eq_some_iff.mp hbuffer).1
    have hcounter : (UInt32.ofNat (0 + p.toNat)).toUInt64 = p := by
      rw [← UInt64.toNat_inj, UInt32.toNat_toUInt64, Nat.zero_add]
      exact UInt32.toNat_ofNat_of_lt (by have : UInt32.size = 2 ^ 32 := rfl; omega)
    have hasc := hv.ascending hbuffer
    have hloop : ∀ bufPos : UInt32, bufPos.toUInt64 = p →
        gapInPage bufPos page size (Int32.ofNat 0) m.allocs.entries =
          (firstGap size.toNat 0 (blocksIn p page m.allocs.entries)).map Int32.ofNat := by
      rintro bufPos rfl
      exact gapInPage_eq (fun e he => hv.inPage hbuffer he) (Nat.zero_le _) hasc
    have hmissed : gapInPage (UInt32.ofNat (0 + p.toNat)) page size (Int32.ofNat 0) m.allocs.entries = none :=
      gapInPage_of_findGap (i := 0) hnone hbuffer
    rw [hloop _ hcounter, Option.map_eq_none_iff] at hmissed
    refine firstGap_ne_none hasc (Nat.zero_le (q - page.toNat)) hsize (mem_blocksIn_of_mem he rfl) ?_ ?_ hmissed
    · show _ ≤ b.1.toNat - page.toNat
      omega
    · intro c hc
      obtain ⟨e', he', hpage', rfl⟩ := mem_blocksIn hc
      have hlive : (e'.1.toUInt64, e'.2.size) ∈ live := (hrecords.mem_iff _).mpr ⟨e'.2.page, he'⟩
      have hapart := hfree _ hlive
      have hin := hv.inPage hbuffer he' hpage'
      simp only [Apart, Block.bytes, LiveBlock.bytes] at hapart hin ⊢
      omega

/-- A further page is refused at the limit, and when the system has none. -/
lemma nextPage_ok_iff (hv : Valid d m) (hsize : size.toNat < pageSize.toNat) (hcount : m.buffers.length ≤ 2 ^ 32) :
    (∃ m', nextPage limit new size m = .ok () m') ↔
      m.bufferPos.toNat + size.toNat < m.buffers.length * pageSize.toNat ∨ m.numBuffers ≠ limit ∧ new ≠ none := by
  have hlt := hv.pos_lt
  simp only [pageSize_toNat] at hsize hlt
  have hbufferSize : (m.numBuffers * pageSize).toNat = m.buffers.length * pageSize.toNat := by
    rw [UInt64.toNat_mul, hv.numBuffers_toNat, pageSize_toNat]
    omega
  have hsum : (m.bufferPos + size).toNat = m.bufferPos.toNat + size.toNat := by
    rw [UInt64.toNat_add]
    omega
  unfold DefaultMemoryManager.nextPage
  simp only [ge_iff_le, UInt64.le_iff_toNat_le, hbufferSize, hsum]
  by_cases hroom : m.bufferPos.toNat + size.toNat < m.buffers.length * pageSize.toNat
  · rw [if_neg (Nat.not_le.mpr hroom)]
    exact iff_of_true ⟨m, rfl⟩ (.inl hroom)
  · rw [if_pos (Nat.not_lt.mp hroom)]
    by_cases hlimit : m.numBuffers = limit
    · rw [if_pos hlimit]
      refine iff_of_false nofun ?_
      rintro (h | ⟨hne, -⟩)
      · exact hroom h
      · exact hne hlimit
    · rw [if_neg hlimit]
      cases new with
      | none =>
        refine iff_of_false nofun ?_
        rintro (h | ⟨-, hne⟩)
        · exact hroom h
        · exact hne rfl
      | some buffer => exact iff_of_true ⟨_, rfl⟩ (.inr ⟨hlimit, nofun⟩)

/-- `malloc` succeeds when there is space. -/
lemma malloc_ok_iff (hv : Valid d m) (hrecords : Records m live) (hcount : m.buffers.length ≤ 2 ^ 32)
    (hd : d ∣ pageSize.toNat) (hpos : 0 < size.toNat) (hdvd : d ∣ size.toNat) (hsize : size < pageSize)
    (hnew : ∀ b, new = some b → GivenPage m b) :
    (∃ ptr m', malloc limit new size m = .ok ptr m') ↔ Space limit new m live size := by
  have hsize' : size.toNat < pageSize.toNat := UInt64.lt_iff_toNat_lt.mp hsize
  have hspace : Space limit new m live size ↔ findGap size m.allocs.entries 0 m.buffers ≠ none ∨
      ∃ m', nextPage limit new size m = .ok () m' := by
    rw [findGap_ne_none_iff hv hrecords hcount hpos, nextPage_ok_iff hv hsize' hcount]
    rfl
  rw [hspace]
  unfold DefaultMemoryManager.malloc
  simp only [if_neg (UInt64.not_le.mpr hsize)]
  cases hgap : findGap size m.allocs.entries 0 m.buffers with
  | some found =>
    obtain ⟨ptr, m', hok, -⟩ := hv.malloc_gap hcount hpos hdvd hgap
    exact iff_of_true ⟨ptr, m', hok⟩ (.inl nofun)
  | none =>
    constructor
    · rintro ⟨ptr, m', hok⟩
      obtain ⟨_, m₁, hnext, -⟩ := bind_eq_ok.mp hok
      exact .inr ⟨m₁, hnext⟩
    · rintro (hfound | ⟨m₁, hnext⟩)
      · exact absurd rfl hfound
      · obtain ⟨e, herror, -⟩ | ⟨m₂, hok, hv₂, -, -, -, hroom⟩ := hv.nextPage hd hcount limit hnew hsize'
        · cases hnext.symm.trans herror
        · obtain ⟨ptr, m', hbump, -⟩ := hv₂.bump hpos hdvd hd hroom
          exact ⟨ptr, m', (bind_of_ok hok).trans hbump⟩

/-- Every live block is smaller than a page, and not empty. -/
lemma HeapRun.size_lt (h : HeapRun limit d m live) : ∀ b ∈ live, 0 < b.2.toNat ∧ b.2 < pageSize := by
  induction h with
  | create buffer fits => simp
  | @malloc m m' live new size ptr run request result ih =>
    have hsize : size < pageSize := by
      unfold DefaultMemoryManager.malloc at result
      split at result
      · cases result
      · rename_i hsize
        exact UInt64.not_le.mp hsize
    intro b hb
    obtain rfl | hb := List.mem_cons.mp hb
    · exact ⟨request.positive, hsize⟩
    · exact ih b hb
  | refused run request result ih => exact ih
  | free run block result ih => exact fun b hb => ih b (List.mem_of_mem_erase hb)

/-- The block is freed, and `malloc` gives one of its size. -/
def Reusable (limit : UInt64) (new : Option UInt64) (m : DefaultMemoryManager) (b : Block) : Prop :=
  ∃ m₁ ptr m', free b.1 m = .ok () m₁ ∧ malloc limit new b.2 m₁ = .ok ptr m'

/-- A freed block can be allocated again exactly when there is space for it among the other blocks:
the place of a block behind which its page holds no other is only found again while the bump position
leaves room or there is a further page. -/
theorem freed_reusable_iff (h : HeapRun limit 1 m live) (hcount : m.buffers.length ≤ 2 ^ 32) {b : Block}
    (hb : b ∈ live) (hnew : ∀ page, new = some page → GivenPage m page) :
    Reusable limit new m b ↔ Space limit new m (live.erase b) b.2 := by
  obtain ⟨hv, hrecords⟩ := h.valid (Nat.one_dvd _) hcount
  obtain ⟨hpos, hsize⟩ := h.size_lt b hb
  obtain ⟨m₁, hfree, hv₁, hbuffers, hbufferPos, -, hentries⟩ := hv.free hrecords hb
  have hrecords₁ : Records m₁ (live.erase b) := hrecords.free hb hentries
  have hmalloc : (∃ ptr m', malloc limit new b.2 m₁ = .ok ptr m') ↔ Space limit new m₁ (live.erase b) b.2 :=
    malloc_ok_iff hv₁ hrecords₁ (hbuffers ▸ hcount) (Nat.one_dvd _) hpos (Nat.one_dvd _) hsize
      fun page hpage => ⟨(hnew page hpage).fits, hbuffers ▸ (hnew page hpage).apart⟩
  have hspace : Space limit new m₁ (live.erase b) b.2 ↔ Space limit new m (live.erase b) b.2 := by
    unfold Space numBuffers
    rw [hbuffers, hbufferPos]
  rw [← hspace, ← hmalloc]
  constructor
  · rintro ⟨m₂, ptr, m', hfree', hok⟩
    cases hfree.symm.trans hfree'
    exact ⟨ptr, m', hok⟩
  · rintro ⟨ptr, m', hok⟩
    exact ⟨m₁, ptr, m', hfree, hok⟩

end

/-- The manager after a request that is granted. -/
def afterMalloc (new : Option UInt64) (size : UInt64) (m : DefaultMemoryManager) : DefaultMemoryManager :=
  finalState (malloc 3 new size) m

lemma heapRun_afterMalloc {m : DefaultMemoryManager} {live : List Block} {new : Option UInt64}
    {size : UInt64} (ptr : UInt64) (run : HeapRun 3 1 m live) (request : Request 1 m new size)
    (hreturned : returned (malloc 3 new size) m = some ptr) :
    HeapRun 3 1 (afterMalloc new size m) ((ptr, size) :: live) :=
  run.malloc request (eq_ok_of_returned hreturned)

/-- Three blocks of a page each. -/
def threePages : DefaultMemoryManager :=
  afterMalloc (some (pageAt 2)) bigSize (afterMalloc (some (pageAt 1)) bigSize
    (afterMalloc none bigSize (.create (pageAt 0))))

lemma request_pageAt {m : DefaultMemoryManager} {i : Nat} (hi : i ≤ 2 ^ 32)
    (hbuffers : m.buffers = (List.range i).map pageAt) : Request 1 m (some (pageAt i)) bigSize :=
  ⟨by decide, Nat.one_dvd _, fun b hb => Option.some.inj hb ▸ givenPage_pageAt hbuffers hi⟩

lemma heapRun_one (size ptr : UInt64) (hsize : 0 < size.toNat)
    (hreturned : returned (malloc 3 none size) (.create (pageAt 0)) = some ptr) :
    HeapRun 3 1 (afterMalloc none size (.create (pageAt 0))) [(ptr, size)] :=
  heapRun_afterMalloc ptr (.create (pageAt 0) (by decide)) ⟨hsize, Nat.one_dvd _, nofun⟩ hreturned

/-- A block of 8 bytes can be freed and allocated again. -/
theorem freed_reusable_eight :
    Reusable 3 none (afterMalloc none 8 (.create (pageAt 0))) (1048576, 8) := by
  have hrun := heapRun_one 8 1048576 (by decide) (by decide +kernel)
  have hnew : ∀ page, none = some page →
      GivenPage (afterMalloc none 8 (.create (pageAt 0))) page := fun page hpage => by cases hpage
  exact (freed_reusable_iff hrun (by decide) List.mem_cons_self hnew).mpr (.inr (.inl (by decide +kernel)))

/-- When three pages are full, the last block cannot be freed and allocated again. -/
theorem freed_reusable_threePages_false :
    ∃ live, HeapRun 3 1 threePages live ∧ (3145728, bigSize) ∈ live ∧
      ¬Reusable 3 (some (pageAt 3)) threePages (3145728, bigSize) := by
  have hfirst := heapRun_one bigSize 1048576 (by decide) (by decide +kernel)
  have hsecond := heapRun_afterMalloc 2097152 hfirst
    (request_pageAt (i := 1) (by decide) (by decide +kernel)) (by decide +kernel)
  have hthird := heapRun_afterMalloc 3145728 hsecond
    (request_pageAt (i := 2) (by decide) (by decide +kernel)) (by decide +kernel)
  refine ⟨_, hthird, List.mem_cons_self, ?_⟩
  rintro ⟨m₁, ptr, m', hfree, hmalloc⟩
  have hrefused : returns (do free 3145728; malloc 3 (some (pageAt 3)) bigSize) threePages = false := by
    decide +kernel
  have hgranted : (do free 3145728; malloc 3 (some (pageAt 3)) bigSize) threePages = .ok ptr m' :=
    (bind_of_ok hfree).trans hmalloc
  simp [returns, hgranted] at hrefused

end ContractPython.Proofs
