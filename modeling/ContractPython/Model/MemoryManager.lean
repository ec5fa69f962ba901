import ContractPython.Lib.SortedMap
import ContractPython.Model.Types

/-!
# The default memory manager

`DefaultMemoryManager` in `Object.h` and `MemoryManager.cpp`. It carves blocks out of pages: in
the first gap before a block of a page, or else behind everything in the last page. Pointers are
64-bit numbers. What `new` gives for a further page is a parameter of `malloc`; it throws when
there is no memory left.
-/

namespace ContractPython

/-- What the memory manager throws. Reading `m_buffers` behind its end is undefined. -/
inductive MemoryError
  | runtimeError (what : Str)
  | badAlloc
  | outOfRange
  deriving DecidableEq, Repr

/-- `AllocInfo`. -/
structure AllocInfo where
  page : UInt64
  size : UInt64
  deriving DecidableEq, Repr

/-- `DefaultMemoryManager`: the pages, the position behind the last block, the live blocks. -/
structure DefaultMemoryManager where
  buffers : List UInt64
  bufferPos : UInt64
  allocs : SortedMap Int64 AllocInfo

namespace DefaultMemoryManager

/-- `PAGE_SIZE`. -/
def pageSize : UInt64 := 1024 * 1024

/-- The constructor, with the address of its first page. -/
def create (buffer : UInt64) : DefaultMemoryManager := ⟨[buffer], 0, .empty⟩

/-- `std::map::emplace`: an entry that is there already stays. -/
def emplace (allocs : SortedMap Int64 AllocInfo) (idx : Int64) (a : AllocInfo) :
    SortedMap Int64 AllocInfo :=
  if allocs.contains idx then allocs else allocs.insert idx a

abbrev Mem := EStateM MemoryError DefaultMemoryManager

/-- `assign_alloc`. -/
def assignAlloc (pageNo poffset size : UInt64) : Mem UInt64 := fun m =>
  if poffset + size > pageSize then .error (.runtimeError (lit "Invalid offset")) m
  else
    match m.buffers[pageNo.toNat]? with
    | none => .error .outOfRange m
    | some buffer =>
      let ptr := buffer + poffset
      .ok ptr { m with allocs := emplace m.allocs ptr.toInt64 ⟨pageNo, size⟩ }

/-- The inner loop of `malloc`: the end of the last block before the first gap in a page. -/
def gapInPage (bufPos : UInt32) (buffer size : UInt64) :
    Int32 → List (Int64 × AllocInfo) → Option Int32
  | _, [] => none
  | lastPos, (ptr, a) :: allocs =>
    if bufPos.toUInt64 ≠ a.page then gapInPage bufPos buffer size lastPos allocs
    else
      let start := ptr.toUInt64 - buffer
      let s := start - lastPos.toInt64.toUInt64
      if s ≥ size then some lastPos
      else gapInPage bufPos buffer size (start + a.size).toUInt32.toInt32 allocs

/-- The outer loop of `malloc`: the first page with a gap. -/
def findGap (size : UInt64) (allocs : List (Int64 × AllocInfo)) :
    UInt32 → List UInt64 → Option (UInt32 × Int32)
  | _, [] => none
  | bufPos, buffer :: buffers =>
    match gapInPage bufPos buffer size 0 allocs with
    | some lastPos => some (bufPos, lastPos)
    | none => findGap size allocs (bufPos + 1) buffers

/-- `m_buffers.size()`. -/
def numBuffers (m : DefaultMemoryManager) : UInt64 := .ofNat m.buffers.length

/-- Behind the loops of `malloc`: a further page if the last one has no room for `size` bytes. -/
def nextPage (limit : UInt64) (new : Option UInt64) (size : UInt64) : Mem Unit := fun m =>
  let bufferSize := m.numBuffers * pageSize
  if m.bufferPos + size ≥ bufferSize then
    if m.numBuffers = limit then
      .error (.runtimeError
        (lit "out of memory: program tries to allocate too much heap memory!")) m
    else
      match new with
      | none => .error .badAlloc m
      | some buffer =>
        .ok () { m with buffers := m.buffers ++ [buffer], bufferPos := bufferSize }
  else .ok () m

/-- The block behind everything in the last page. -/
def bump (size : UInt64) : Mem UInt64 := fun m =>
  let newPos := m.bufferPos
  let buffer := m.numBuffers - 1
  let offset := newPos - buffer * pageSize
  assignAlloc buffer offset size { m with bufferPos := m.bufferPos + size }

/-- `malloc`; `limit` is `DEFAULT_MAXIMUM_HEAP_PAGES`. -/
def malloc (limit : UInt64) (new : Option UInt64) (size : UInt64) : Mem UInt64 := fun m =>
  if size ≥ pageSize then
    .error (.runtimeError (lit "cannot allocate more than page size")) m
  else
    match findGap size m.allocs.entries 0 m.buffers with
    | some (bufPos, lastPos) =>
      assignAlloc bufPos.toUInt64 lastPos.toInt64.toUInt64 size m
    | none => (do nextPage limit new size; bump size) m

/-- `free`. -/
def free (ptr : UInt64) : Mem Unit := fun m =>
  let idx := ptr.toInt64
  if m.allocs.contains idx then .ok () { m with allocs := m.allocs.erase idx }
  else .error (.runtimeError (lit "Memory error!")) m

end DefaultMemoryManager

end ContractPython
