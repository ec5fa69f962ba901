import ContractPython.Model.StringReader

/-!
# Reading a source line by line

The lines the reader hands out make up the source. Behind the last one the line number is not the
number of a line, and the parser's question for that line throws.
-/

namespace ContractPython.Proofs

open ContractPython.StringReader

/-! ### The lines of a source -/

/-- Newlines only end a line. -/
def IsLine (line : Str) : Prop := newline ∉ line.dropLast

/-- A text without a newline, or up to the first one. -/
lemma findIdx?_newline (text : Str) :
    match text.findIdx? (· == newline) with
    | some k => ∃ line rest, text = line ++ newline :: rest ∧ newline ∉ line ∧ line.length = k
    | none => newline ∉ text := by
  induction text with
  | nil => exact List.not_mem_nil
  | cons c text ih =>
    rw [List.findIdx?_cons]
    by_cases hc : c = newline
    · rw [if_pos (by rw [hc]; rfl), hc]
      exact ⟨[], text, rfl, List.not_mem_nil, rfl⟩
    · have hc' : ¬(c == newline) = true := by simpa using hc
      rw [if_neg hc']
      have hne : newline ≠ c := fun h => hc h.symm
      cases hfind : text.findIdx? (· == newline) with
      | none =>
        rw [hfind] at ih
        exact List.not_mem_cons_of_ne_of_not_mem hne ih
      | some k =>
        rw [hfind] at ih
        obtain ⟨line, rest, rfl, hline, rfl⟩ := ih
        exact ⟨c :: line, rest, rfl, List.not_mem_cons_of_ne_of_not_mem hne hline, rfl⟩

section Lines

variable {code : Str} {lastPos rounds : Nat}

lemma rest_of_findNewline_none (h : findNewline code lastPos = none) : newline ∉ code.drop lastPos := by
  have hsplit := findIdx?_newline (code.drop lastPos)
  unfold findNewline at h
  rw [Option.map_eq_none_iff] at h
  rwa [h] at hsplit

lemma rest_of_findNewline {pos : Nat} (h : findNewline code lastPos = some pos) :
    ∃ line rest, code.drop lastPos = line ++ newline :: rest ∧ newline ∉ line ∧ pos = lastPos + line.length := by
  have hsplit := findIdx?_newline (code.drop lastPos)
  unfold findNewline at h
  obtain ⟨k, hk, rfl⟩ := Option.map_eq_some_iff.mp h
  rw [hk] at hsplit
  obtain ⟨line, rest, heq, hline, rfl⟩ := hsplit
  exact ⟨line, rest, heq, hline, rfl⟩

/-- What the constructor makes of the text behind `last_pos`. -/
structure Splits (text : Str) (lines : List Str) : Prop where
  flatten_eq : lines.flatten = text
  length_eq : lines.length = text.count newline + 1
  isLine : ∀ line ∈ lines, IsLine line

lemma splits_single {text : Str} (h : newline ∉ text) : Splits text [text] where
  flatten_eq := by simp
  length_eq := by rw [List.count_eq_zero_of_not_mem h, List.length_singleton]
  isLine line hline := by
    rw [List.mem_singleton] at hline
    rw [hline]
    exact fun hmem => h ((List.dropLast_sublist text).subset hmem)

lemma Splits.cons {line rest : Str} {ls : List Str} (hline : newline ∉ line) (h : Splits rest ls) :
    Splits (line ++ newline :: rest) ((line ++ [newline]) :: ls) where
  flatten_eq := by
    rw [List.flatten_cons, h.flatten_eq, List.append_assoc]
    rfl
  length_eq := by
    rw [List.length_cons, h.length_eq, List.count_append, List.count_eq_zero_of_not_mem hline, List.count_cons_self,
      Nat.zero_add]
  isLine l hl := by
    obtain rfl | hmem := List.mem_cons.mp hl
    · unfold IsLine
      rw [List.dropLast_concat]
      exact hline
    · exact h.isLine l hmem

/-- With as many rounds as bytes left the loop takes the whole text apart. -/
lemma splits_lines (h : (code.drop lastPos).length ≤ rounds) :
    Splits (code.drop lastPos) (lines code rounds lastPos) := by
  have hlast : (code.drop lastPos).take (code.length - lastPos) = code.drop lastPos := by
    apply List.take_of_length_le
    rw [List.length_drop]
  induction rounds generalizing lastPos with
  | zero =>
    have hnil : code.drop lastPos = [] := List.eq_nil_of_length_eq_zero (Nat.le_zero.mp h)
    unfold lines
    rw [hlast]
    apply splits_single
    rw [hnil]
    exact List.not_mem_nil
  | succ rounds ih =>
    unfold lines
    cases hfind : findNewline code lastPos with
    | none =>
      dsimp only
      rw [hlast]
      exact splits_single (rest_of_findNewline_none hfind)
    | some pos =>
      obtain ⟨line, rest, heq, hline, rfl⟩ := rest_of_findNewline hfind
      have hfront : (code.drop lastPos) = (line ++ [newline]) ++ rest := heq.trans (List.append_cons line newline rest)
      have hlength : (line ++ [newline]).length = line.length + 1 := by
        rw [List.length_append, List.length_singleton]
      have htake : (code.drop lastPos).take (lastPos + line.length + 1 - lastPos) = line ++ [newline] := by
        rw [hfront]
        apply List.take_left'
        omega
      have hdrop : code.drop (lastPos + line.length + 1) = rest := by
        rw [Nat.add_assoc, ← List.drop_drop, hfront]
        exact List.drop_left' hlength
      have hshorter : (code.drop (lastPos + line.length + 1)).length ≤ rounds := by
        rw [hdrop]
        rw [hfront, List.length_append] at h
        omega
      have hrest := ih hshorter (List.take_of_length_le (by rw [List.length_drop]))
      dsimp only
      rw [htake, heq]
      rw [hdrop] at hrest
      exact hrest.cons hline

lemma splits_ofSource (code : Str) : Splits code (ofSource code).code := by
  have hall : (code.drop 0).length ≤ code.length := le_rfl
  exact splits_lines hall

end Lines

/-! ### Reading -/

/-- The lines of so many calls of `next_line`, and the reader behind them. -/
def readLines (reader : StringReader) : Nat → List Str × StringReader
  | 0 => ([], reader)
  | n + 1 =>
    let (read, reader') := readLines reader n
    let (line, reader'') := reader'.nextLine
    (read ++ [line], reader'')

/-- Calling `next_line` until `eof()` comes to an end, and the lines are those of the source. -/
def ReadsSource (source : Str) : Prop :=
  ∃ n, (∀ k < n, (readLines (ofSource source) k).2.eof = false) ∧ (readLines (ofSource source) n).2.eof = true ∧
    (readLines (ofSource source) n).1.flatten = source ∧ ∀ line ∈ (readLines (ofSource source) n).1, IsLine line

/-- After so many calls the line the reader is at can be asked for. -/
def LocatesLine (source : Str) (n : Nat) : Prop :=
  ∃ line, (readLines (ofSource source) n).2.getLine (readLines (ofSource source) n).2.getLineNumber.toNat = .ok line

section Reading

variable {reader : StringReader} {source : Str} {n : Nat}

@[simp] lemma code_nextLine (reader : StringReader) : reader.nextLine.2.code = reader.code := by
  unfold nextLine
  split <;> rfl

@[simp] lemma code_readLines (reader : StringReader) (n : Nat) : (readLines reader n).2.code = reader.code := by
  induction n with
  | zero => rfl
  | succ n ih => exact (code_nextLine _).trans ih

lemma eof_iff (reader : StringReader) : reader.eof = true ↔ reader.linePos.toNat = reader.code.length := by
  unfold eof
  rw [beq_iff_eq]

lemma nextLine_of_not_eof (h : ¬reader.eof = true) : reader.nextLine =
    (reader.code.getD reader.linePos.toNat [], { reader with linePos := reader.linePos + 1 }) := by
  unfold nextLine
  rw [if_neg h]

lemma nextLine_of_eof (h : reader.eof = true) : reader.nextLine = ([], reader) := by
  unfold nextLine
  rw [if_pos h]

/-- Up to the last line the reader is at the line of its number. -/
lemma readLines_run (hsmall : reader.code.length < 2 ^ 32) (hstart : reader.linePos = 0) (hn : n ≤ reader.code.length) :
    (readLines reader n).1 = reader.code.take n ∧ (readLines reader n).2.linePos.toNat = n := by
  induction n with
  | zero =>
    refine ⟨rfl, ?_⟩
    show reader.linePos.toNat = 0
    rw [hstart]
    rfl
  | succ n ih =>
    obtain ⟨hread, hpos⟩ := ih (by omega)
    have hlt : n < reader.code.length := by omega
    have hline : ¬(readLines reader n).2.eof = true := by
      rw [eof_iff, hpos, code_readLines]
      omega
    have hnext := nextLine_of_not_eof hline
    constructor
    · have hlast : (readLines reader n).2.nextLine.1 = reader.code.getD n [] := by
        rw [hnext]
        show (readLines reader n).2.code.getD (readLines reader n).2.linePos.toNat [] = _
        rw [hpos, code_readLines]
      show (readLines reader n).1 ++ [(readLines reader n).2.nextLine.1] = _
      rw [hlast, hread, ← List.take_append_getElem hlt, List.getD_eq_getElem?_getD,
        List.getElem?_eq_getElem hlt, Option.getD_some]
    · show (readLines reader n).2.nextLine.2.linePos.toNat = n + 1
      rw [hnext]
      show ((readLines reader n).2.linePos + 1).toNat = n + 1
      rw [UInt32.toNat_add, hpos]
      show (n + 1) % 2 ^ 32 = n + 1
      exact Nat.mod_eq_of_lt (by omega)

/-- Behind the last line the reader stays where it is. -/
lemma readLines_behind (hsmall : reader.code.length < 2 ^ 32) (hstart : reader.linePos = 0)
    (hn : reader.code.length ≤ n) : (readLines reader n).2.linePos.toNat = reader.code.length := by
  induction n, hn using Nat.le_induction with
  | base => exact (readLines_run hsmall hstart le_rfl).2
  | succ n hn ih =>
    have heof : (readLines reader n).2.eof = true := by
      rw [eof_iff, code_readLines]
      exact ih
    show (readLines reader n).2.nextLine.2.linePos.toNat = _
    rw [nextLine_of_eof heof]
    exact ih

lemma getLine_eq_ok (idx : Nat) : (∃ line, reader.getLine idx = .ok line) ↔ idx < reader.code.length := by
  have hpos := List.length_pos_of_ne_nil reader.nonempty
  unfold getLine
  by_cases h : reader.code.length - 1 < idx
  · rw [if_pos h]
    constructor
    · rintro ⟨line, ⟨⟩⟩
    · omega
  · rw [if_neg h]
    constructor
    · omega
    · exact fun _ => ⟨_, rfl⟩

/-- A source of fewer than 2 ^ 32 lines is read, and no other. -/
lemma readsSource_iff : ReadsSource source ↔ source.count newline + 1 < 2 ^ 32 := by
  have hsplits := splits_ofSource source
  constructor
  · rintro ⟨n, -, heof, -⟩
    rw [eof_iff, code_readLines, hsplits.length_eq] at heof
    rw [← heof]
    exact UInt32.toNat_lt _
  · intro hsmall
    rw [← hsplits.length_eq] at hsmall
    obtain ⟨hread, hpos⟩ := readLines_run hsmall rfl (le_refl (ofSource source).code.length)
    rw [List.take_length] at hread
    refine ⟨(ofSource source).code.length, ?_, ?_, ?_, ?_⟩
    · intro k hk
      rw [← Bool.not_eq_true, eof_iff, code_readLines, (readLines_run hsmall rfl hk.le).2]
      omega
    · rw [eof_iff, code_readLines]
      exact hpos
    · rw [hread]
      exact hsplits.flatten_eq
    · rw [hread]
      exact hsplits.isLine

/-- The reader works as long as lines are left, in a source of fewer than 2 ^ 32 of them. -/
theorem string_reader_iff (source : Str) (n : Nat) :
    (ReadsSource source ∧ LocatesLine source n) ↔ source.count newline + 1 < 2 ^ 32 ∧ n ≤ source.count newline := by
  rw [readsSource_iff]
  apply and_congr_right
  intro hsmall
  have hlength := (splits_ofSource source).length_eq
  rw [← hlength] at hsmall
  unfold LocatesLine getLineNumber
  rw [getLine_eq_ok, code_readLines, ← Nat.lt_succ_iff, Nat.succ_eq_add_one, ← hlength]
  obtain hn | hn := Nat.lt_or_ge n (ofSource source).code.length
  · rw [(readLines_run hsmall rfl hn.le).2]
  · rw [readLines_behind hsmall rfl hn]
    omega

/-- The source `a`, with its newline, ends before the line the parser asks for. -/
theorem string_reader_a_false : ¬∀ n, ReadsSource [97, 10] ∧ LocatesLine [97, 10] n := by
  intro h
  have hlocated : ∃ line, (readLines (ofSource [97, 10]) 2).2.getLine
      (readLines (ofSource [97, 10]) 2).2.getLineNumber.toNat = .ok line := (h 2).2
  rw [getLine_eq_ok] at hlocated
  exact absurd hlocated (by decide)

end Reading

end ContractPython.Proofs
