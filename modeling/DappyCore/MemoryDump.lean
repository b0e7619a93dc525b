import DappyCore.HeaderLines
import DappyCore.Lib.Words
import DappyCore.Memory

/-!
What can be read back from a dump of memory: the addresses, the bytes and where the sidebar is.
-/

namespace DappyCore.Memory

open Lib Words Json Transport

/-! ### Reading a dump -/

/-- The lines of a dump that begin with an address. -/
def dumpRows (text : List Char) : List (List Char) :=
  (text.splitOn '\n').filter ("0x".toList.isPrefixOf ·)

def addressColumn (row : List Char) : List Char := row.take 18

def hexColumns (row : List Char) : List Char := (row.drop 20).take 49

def sidebar (row : List Char) : List Char := row.drop 70

/-- Rows of sixteen bytes each say what is in memory from this address on. -/
structure ReadsBack (base : UInt64) (bytes : List UInt8) (rows : List (List Char)) : Prop where
  length : rows.length = (bytes.length + 15) / 16
  labels : ∀ k row, rows[k]? = some row →
    (parseAddress (addressColumn row)).map UInt64.toNat = some ((base.toNat + 16 * k) % 2 ^ 64)
  read : (rows.flatMap fun row => words ' ' (hexColumns row)).mapM
    (fun word => (Hex.fromStr 255 word).map UInt8.ofNat) = some bytes
  sidebar : ∀ k row, rows[k]? = some row →
    sidebar row = ((bytes.drop (16 * k)).take 16).map asciiChar

/-! ### Labels -/

lemma length_label (base : UInt64) (i : ℕ) : (label (some base) i).length = 20 := by
  have hlen : (Hex.padded 16 (base + UInt64.ofNat (i * 16)).toNat).length = 16 :=
    Hex.length_padded (by decide) (UInt64.toNat_lt _)
  rw [label, List.length_append, List.length_append, hlen]
  rfl

lemma take_label (base : UInt64) (i : ℕ) (rest : List Char) :
    (label (some base) i ++ rest).take 18 =
      "0x".toList ++ Hex.padded 16 (base + UInt64.ofNat (i * 16)).toNat := by
  have hlen : ("0x".toList ++ Hex.padded 16 (base + UInt64.ofNat (i * 16)).toNat).length = 18 := by
    rw [List.length_append, Hex.length_padded (by decide) (UInt64.toNat_lt _)]
    rfl
  rw [label, List.append_assoc, List.append_assoc, ← List.append_assoc]
  exact List.take_left' hlen

lemma parseAddress_padded (addr : UInt64) :
    parseAddress ("0x".toList ++ Hex.padded 16 addr.toNat) = some addr := by
  have hle : addr.toNat ≤ 0xffffffffffffffff := Nat.le_of_lt_succ addr.toNat_lt
  have hread := Hex.fromStr_padded 16 hle
  have hbegins : ∀ rest : List Char, ['0', 'x'].isPrefixOf? ("0x".toList ++ rest) = some rest :=
    fun _ => rfl
  rw [parseAddress, hbegins, Option.some_or]
  simp only [hread, Option.map_some, UInt64.ofNat_toNat]

/-! ### Columns -/

/-- Cells side by side from a column on, with the gap. -/
def columns (start : ℕ) (cells : List (List Char)) : List Char :=
  (cells.zipIdx start).flatMap fun (cell, j) => gap j ++ cell

lemma columns_cons (start : ℕ) (cell : List Char) (cells : List (List Char)) :
    columns start (cell :: cells) = gap start ++ (cell ++ columns (start + 1) cells) := by
  simp [columns]

lemma length_columns {cells : List (List Char)} (h : ∀ cell ∈ cells, cell.length = 3)
    (start : ℕ) : (columns start cells).length =
      3 * cells.length + if start ≤ 8 ∧ 8 < start + cells.length then 1 else 0 := by
  induction cells generalizing start with
  | nil =>
    rw [if_neg (by simp only [List.length_nil]; omega)]
    rfl
  | cons cell cells ih =>
    obtain ⟨hcell, hcells⟩ := List.forall_mem_cons.mp h
    rw [columns_cons, List.length_append, List.length_append, hcell, ih hcells, List.length_cons]
    have hgap : (gap start).length = if start = 8 then 1 else 0 := by
      unfold gap
      split_ifs <;> rfl
    rw [hgap]
    split_ifs <;> omega

/-- The gap is between words, as each cell ends with a blank. -/
lemma words_columns {cells : List (List Char)} (h : ∀ cell ∈ cells, cell.getLast? = some ' ')
    (start : ℕ) : words ' ' (columns start cells) = cells.flatMap (words ' ') := by
  induction cells generalizing start with
  | nil => exact words_nil
  | cons cell cells ih =>
    obtain ⟨hcell, hcells⟩ := List.forall_mem_cons.mp h
    obtain ⟨front, rfl⟩ := List.getLast?_eq_some_iff.mp hcell
    have hgap : ∀ text, words ' ' (gap start ++ text) = words ' ' text := by
      intro text
      unfold gap
      split_ifs
      · exact words_cons text
      · rfl
    rw [columns_cons, hgap, words_concat_append, ih hcells, List.flatMap_cons]

lemma columns_append (start : ℕ) (cells cells' : List (List Char)) :
    columns start (cells ++ cells') =
      columns start cells ++ columns (start + cells.length) cells' := by
  rw [columns, List.zipIdx_append, List.flatMap_append]
  rfl

def byteCell (byte : UInt8) : List Char := Hex.padded 2 byte.toNat ++ [' ']

def blankCell : List Char := List.replicate 3 ' '

lemma byteColumns_eq (chunk : List UInt8) : byteColumns chunk = columns 0 (chunk.map byteCell) := by
  rw [columns, List.zipIdx_map, List.flatMap_map]
  rfl

lemma paddingColumns_eq (length : ℕ) :
    paddingColumns length = columns length (List.replicate (16 - length) blankCell) := by
  unfold paddingColumns
  generalize 16 - length = n
  induction n generalizing length with
  | zero => rfl
  | succ n ih =>
    rw [List.range'_succ, List.flatMap_cons, ih, List.replicate_succ, columns_cons,
      List.append_assoc]
    rfl

/-- The cells of a row: those of the bytes there are, and blanks for those there are not. -/
def rowCells (chunk : List UInt8) : List (List Char) :=
  chunk.map byteCell ++ List.replicate (16 - chunk.length) blankCell

/-- **The two loops of a row** go over its cells, and meet the gap once between them. -/
lemma byteColumns_append_paddingColumns (chunk : List UInt8) :
    byteColumns chunk ++ paddingColumns chunk.length = columns 0 (rowCells chunk) := by
  rw [rowCells, columns_append, byteColumns_eq, paddingColumns_eq, List.length_map, Nat.zero_add]

lemma length_byteCell (byte : UInt8) : (byteCell byte).length = 3 := by
  rw [byteCell, List.length_append, Hex.length_padded (by decide) byte.toNat_lt]
  rfl

section Chunk

variable {chunk : List UInt8}

lemma forall_mem_rowCells {p : List Char → Prop} (hbyte : ∀ byte, p (byteCell byte))
    (hblank : p blankCell) : ∀ cell ∈ rowCells chunk, p cell := by
  intro cell hcell
  rcases List.mem_append.mp hcell with hcell | hcell
  · obtain ⟨byte, -, rfl⟩ := List.mem_map.mp hcell
    exact hbyte byte
  · rw [List.eq_of_mem_replicate hcell]
    exact hblank

lemma length_columns_rowCells (h : chunk.length ≤ 16) :
    (columns 0 (rowCells chunk)).length = 49 := by
  have hcells : (rowCells chunk).length = 16 := by
    rw [rowCells, List.length_append, List.length_map, List.length_replicate]
    omega
  rw [length_columns (forall_mem_rowCells length_byteCell rfl), hcells]
  rfl

lemma words_byteCell (byte : UInt8) : words ' ' (byteCell byte) = [Hex.padded 2 byte.toNat] := by
  refine words_of_notMem (Hex.padded_ne_nil 2 byte.toNat) fun hblank => ?_
  exact absurd (Hex.isHexDigit_of_mem_padded hblank) (by decide)

lemma words_rowCells : words ' ' (columns 0 (rowCells chunk)) =
    chunk.map fun byte => Hex.padded 2 byte.toNat := by
  have hlast : ∀ byte, (byteCell byte).getLast? = some ' ' := fun _ => List.getLast?_concat
  rw [words_columns (forall_mem_rowCells hlast rfl), rowCells, List.flatMap_append]
  have hblank : words ' ' blankCell = [] := words_replicate 3
  rw [List.flatMap_replicate, hblank, List.flatten_replicate_nil, List.append_nil,
    List.flatMap_map]
  simp only [words_byteCell]
  exact List.map_eq_flatMap.symm

/-! ### Rows -/

variable (base : UInt64) (i : ℕ)

lemma row_eq : row (some base) i chunk =
    label (some base) i ++ (columns 0 (rowCells chunk) ++ ([' '] ++ chunk.map asciiChar)) := by
  rw [row, ← byteColumns_append_paddingColumns, List.append_assoc]
  rfl

lemma addressColumn_row : addressColumn (row (some base) i chunk) =
    "0x".toList ++ Hex.padded 16 (base + UInt64.ofNat (i * 16)).toNat := by
  rw [row_eq, addressColumn, take_label]

lemma hexColumns_row (h : chunk.length ≤ 16) :
    hexColumns (row (some base) i chunk) = columns 0 (rowCells chunk) := by
  rw [row_eq, hexColumns, List.drop_left' (length_label base i),
    List.take_left' (length_columns_rowCells h)]

/-- **The sidebar is where it is** for a row of any length. -/
lemma sidebar_row (h : chunk.length ≤ 16) :
    sidebar (row (some base) i chunk) = chunk.map asciiChar := by
  rw [row_eq, ← List.append_assoc, ← List.append_assoc, sidebar]
  refine List.drop_left' ?_
  rw [List.length_append, List.length_append, length_label, length_columns_rowCells h]
  rfl

end Chunk

/-! ### Chunks -/

section Chunks

variable {data : List UInt8}

lemma length_chunks : (chunks data).length = (data.length + 15) / 16 := by
  rw [chunks, List.length_map, List.length_range]

lemma eq_of_getElem?_chunks {k : ℕ} {chunk : List UInt8} (h : (chunks data)[k]? = some chunk) :
    chunk = (data.drop (16 * k)).take 16 := by
  rw [chunks, List.getElem?_map, Option.map_eq_some_iff] at h
  obtain ⟨i, hi, rfl⟩ := h
  obtain ⟨_, rfl⟩ := List.getElem?_eq_some_iff.mp hi
  rw [List.getElem_range]

lemma length_le_of_mem_chunks {chunk : List UInt8} (h : chunk ∈ chunks data) :
    chunk.length ≤ 16 := by
  obtain ⟨i, -, rfl⟩ := List.mem_map.mp h
  exact List.length_take_le 16 _

/-- The chunks in order are the bytes. -/
lemma flatten_chunks (data : List UInt8) : (chunks data).flatten = data := by
  have htake : ∀ k, ((List.range k).map fun i => (data.drop (16 * i)).take 16).flatten =
      data.take (16 * k) := by
    intro k
    induction k with
    | zero => rfl
    | succ k ih =>
      rw [List.range_succ, List.map_append, List.flatten_append, ih, List.map_singleton,
        List.flatten_singleton, Nat.mul_succ, List.take_add]
  rw [chunks, htake]
  exact List.take_of_length_le (by omega)

/-- The rows of a dump. -/
def rowsFrom (base : UInt64) (data : List UInt8) : List (List Char) :=
  (chunks data).zipIdx.map fun (chunk, i) => row (some base) i chunk

lemma getElem?_rowsFrom {base : UInt64} {k : ℕ} {r : List Char}
    (h : (rowsFrom base data)[k]? = some r) :
    ∃ chunk, (chunks data)[k]? = some chunk ∧ r = row (some base) k chunk := by
  rw [rowsFrom, List.getElem?_map, List.getElem?_zipIdx, Option.map_map,
    Option.map_eq_some_iff] at h
  obtain ⟨chunk, hchunk, rfl⟩ := h
  refine ⟨chunk, hchunk, ?_⟩
  rw [Function.comp_apply, Nat.zero_add]

/-- A byte is read back from its digits. -/
lemma fromStr_padded_byte (byte : UInt8) :
    (Hex.fromStr 255 (Hex.padded 2 byte.toNat)).map UInt8.ofNat = some byte := by
  have hle : byte.toNat ≤ 255 := Nat.le_of_lt_succ byte.toNat_lt
  rw [Hex.fromStr_padded 2 hle, Option.map_some, UInt8.ofNat_toNat]

lemma words_rowsFrom (base : UInt64) (data : List UInt8) :
    (rowsFrom base data).flatMap (fun r => words ' ' (hexColumns r)) =
      data.map fun byte => Hex.padded 2 byte.toNat := by
  have hwords : ∀ p ∈ (chunks data).zipIdx,
      words ' ' (hexColumns (row (some base) p.2 p.1)) =
        p.1.map fun byte => Hex.padded 2 byte.toNat := by
    intro p hp
    have hle := length_le_of_mem_chunks (List.fst_mem_of_mem_zipIdx hp)
    rw [hexColumns_row base p.2 hle, words_rowCells]
  rw [rowsFrom, List.flatMap_map, List.flatMap_congr hwords, ← List.flatMap_map Prod.fst,
    List.zipIdx_map_fst, ← List.map_flatMap, List.flatMap_id', flatten_chunks]

lemma readsBack_rowsFrom (base : UInt64) (data : List UInt8) :
    ReadsBack base data (rowsFrom base data) where
  length := by rw [rowsFrom, List.length_map, List.length_zipIdx, length_chunks]
  labels k r h := by
    obtain ⟨chunk, -, rfl⟩ := getElem?_rowsFrom h
    rw [addressColumn_row, parseAddress_padded, Option.map_some, UInt64.toNat_add,
      UInt64.toNat_ofNat', Nat.add_mod_mod, Nat.mul_comm]
  read := by
    have hpure : (fun word => (Hex.fromStr 255 word).map UInt8.ofNat) ∘
        (fun byte : UInt8 => Hex.padded 2 byte.toNat) = pure := funext fromStr_padded_byte
    rw [words_rowsFrom, List.mapM_map, hpure, List.mapM_pure, List.map_id']
    rfl
  sidebar k r h := by
    obtain ⟨chunk, hchunk, rfl⟩ := getElem?_rowsFrom h
    rw [sidebar_row base k (length_le_of_mem_chunks (List.mem_of_getElem? hchunk)),
      eq_of_getElem?_chunks hchunk]

end Chunks

/-! ### Lines -/

lemma newline_notMem_padded (width n : ℕ) : '\n' ∉ Hex.padded width n := by
  intro h
  exact absurd (Hex.isHexDigit_of_mem_padded h) (by decide)

lemma newline_notMem_label (base : UInt64) (i : ℕ) : '\n' ∉ label (some base) i := by
  rw [label, List.mem_append, List.mem_append, not_or, not_or]
  exact ⟨by decide, newline_notMem_padded _ _, by decide⟩

lemma newline_notMem_columns {cells : List (List Char)} (h : ∀ cell ∈ cells, '\n' ∉ cell)
    (start : ℕ) : '\n' ∉ columns start cells := by
  induction cells generalizing start with
  | nil => exact List.not_mem_nil
  | cons cell cells ih =>
    obtain ⟨hcell, hcells⟩ := List.forall_mem_cons.mp h
    have hgap : '\n' ∉ gap start := by
      unfold gap
      split_ifs <;> decide
    rw [columns_cons, List.mem_append, List.mem_append, not_or, not_or]
    exact ⟨hgap, hcell, ih hcells _⟩

lemma asciiChar_ne_newline (byte : UInt8) : asciiChar byte ≠ '\n' := by
  have hall : ∀ n < 127, 32 ≤ n → Char.ofNat n ≠ '\n' := by decide
  unfold asciiChar
  split_ifs with h
  · exact hall byte.toNat (Nat.lt_succ_of_le h.2) h.1
  · decide

lemma newline_notMem_row (base : UInt64) (i : ℕ) (chunk : List UInt8) :
    '\n' ∉ row (some base) i chunk := by
  have hbyte : ∀ byte, '\n' ∉ byteCell byte := by
    intro byte
    rw [byteCell, List.mem_append, not_or]
    exact ⟨newline_notMem_padded _ _, by decide⟩
  have hascii : '\n' ∉ chunk.map asciiChar := by
    intro h
    obtain ⟨byte, -, hnewline⟩ := List.mem_map.mp h
    exact asciiChar_ne_newline byte hnewline
  simp only [row_eq, List.mem_append, not_or]
  exact ⟨newline_notMem_label base i,
    newline_notMem_columns (forall_mem_rowCells hbyte (by decide)) 0, by decide, hascii⟩

/-- An address that is accepted is on one line. -/
lemma newline_notMem_of_parseAddress {address : List Char} {base : UInt64}
    (h : parseAddress address = some base) : '\n' ∉ address := by
  -- a hex number is of digits and a sign
  have hhex : ∀ {front rest : List Char}, '\n' ∉ front → front.isPrefixOf? address = some rest →
      ∀ {n}, Hex.fromStr 0xffffffffffffffff rest = some n → '\n' ∉ address := by
    intro front rest hfront hrest n hn
    rw [← List.isPrefixOf?_eq_some_iff_append_eq.mp hrest, List.mem_append, not_or]
    refine ⟨hfront, fun hmem => ?_⟩
    have hchar := Hex.mem_of_fromStr hn _ hmem
    exact absurd hchar (by decide)
  unfold parseAddress at h
  cases hbegins : (['0', 'x'].isPrefixOf? address).or (['0', 'X'].isPrefixOf? address) with
  | some rest =>
    rw [hbegins] at h
    obtain ⟨n, hn, -⟩ := Option.map_eq_some_iff.mp h
    rcases Option.or_eq_some_iff.mp hbegins with hx | ⟨-, hX⟩
    · exact hhex (by decide) hx hn
    · exact hhex (by decide) hX hn
  | none =>
    rw [hbegins] at h
    obtain ⟨n, hn, -⟩ := Option.map_eq_some_iff.mp h
    intro hmem
    have hchar := mem_of_parseUsize hn _ hmem
    exact absurd hchar (by decide)

lemma newline_notMem_natString (n : ℕ) : '\n' ∉ (toString n).toList := by
  have hdigits : (toString n).toList = Nat.toDigits 10 n := Nat.toList_repr
  rw [hdigits]
  intro h
  exact absurd (isDigit_of_mem h) (by decide)

lemma newline_notMem_intString (n : ℤ) : '\n' ∉ (toString n).toList := by
  rw [Int.toString_eq_repr, Int.repr_eq_if]
  split_ifs
  · exact newline_notMem_natString n.toNat
  · rw [String.toList_append, List.mem_append, not_or]
    exact ⟨by decide, newline_notMem_natString (-n).toNat⟩

/-- The lines before the rows are none of them. -/
structure Above (lines : List (List Char)) : Prop where
  whole : ∀ line ∈ lines, '\n' ∉ line
  unlike : ∀ line ∈ lines, "0x".toList.isPrefixOf line = false

lemma dumpRows_lines {above : List (List Char)} (h : Above above) (base : UInt64)
    (data : List UInt8) :
    dumpRows ((above ++ rowsFrom base data).flatMap (· ++ ['\n'])) = rowsFrom base data := by
  have hlines : ∀ line ∈ above ++ rowsFrom base data, '\n' ∉ line := by
    intro line hline
    rcases List.mem_append.mp hline with hline | hline
    · exact h.whole line hline
    · obtain ⟨p, -, rfl⟩ := List.mem_map.mp hline
      exact newline_notMem_row base p.2 p.1
  have habove : above.filter ("0x".toList.isPrefixOf ·) = [] := by
    rw [List.filter_eq_nil_iff]
    intro line hline
    rw [h.unlike line hline]
    exact Bool.false_ne_true
  have hrows : (rowsFrom base data).filter ("0x".toList.isPrefixOf ·) = rowsFrom base data := by
    rw [List.filter_eq_self]
    intro r hr
    obtain ⟨p, -, rfl⟩ := List.mem_map.mp hr
    rfl
  rw [dumpRows, splitOn_lines hlines, List.filter_append, List.filter_append, habove, hrows]
  simp

/-- The line above the rows that says how much is below. -/
def headerLine (address : List Char) (data : List UInt8) : List Char :=
  "Memory at ".toList ++ (address ++ (" (".toList ++
    ((toString data.length).toList ++ " bytes):".toList)))

/-- The line above the rows that says how much could not be read. -/
def unreadableLine (n : ℤ) : List Char :=
  '(' :: ((toString n).toList ++ " byte(s) unreadable)".toList)

lemma headerLine_append_newline (address : List Char) (data : List UInt8) :
    headerLine address data ++ ['\n'] = "Memory at ".toList ++ (address ++ (" (".toList ++
      ((toString data.length).toList ++ " bytes):\n".toList))) := by
  have hassoc : ∀ a b c d e : List Char, (a ++ (b ++ (c ++ (d ++ e)))) ++ ['\n'] =
      a ++ (b ++ (c ++ (d ++ (e ++ ['\n'])))) := by simp
  exact hassoc _ _ _ _ _

lemma unreadableLine_append_newline (n : ℤ) : unreadableLine n ++ ['\n'] =
    '(' :: ((toString n).toList ++ " byte(s) unreadable)\n".toList) := by
  have hassoc : ∀ a b : List Char, ('(' :: (a ++ b)) ++ ['\n'] = '(' :: (a ++ (b ++ ['\n'])) := by
    simp
  exact hassoc _ _

lemma above_lines {address : List Char} (h : '\n' ∉ address) (data : List UInt8)
    (unreadable : Option ℤ) :
    Above (headerLine address data :: unreadable.toList.map unreadableLine) := by
  have hunreadable : ∀ line ∈ unreadable.toList.map unreadableLine,
      ∃ n, line = unreadableLine n := by
    intro line hline
    obtain ⟨n, -, rfl⟩ := List.mem_map.mp hline
    exact ⟨n, rfl⟩
  constructor
  · refine List.forall_mem_cons.mpr ⟨?_, fun line hline => ?_⟩
    · -- the heading, with the address as it was given
      have hlength := newline_notMem_natString data.length
      have hend : '\n' ∉ (toString data.length).toList ++ " bytes):".toList :=
        List.not_mem_append hlength (by decide)
      have hopen : '\n' ∉ " (".toList := by decide
      have hmemory : '\n' ∉ "Memory at ".toList := by decide
      exact List.not_mem_append hmemory (List.not_mem_append h (List.not_mem_append hopen hend))
    · -- the line about what cannot be read
      obtain ⟨n, rfl⟩ := hunreadable line hline
      have hend : '\n' ∉ (toString n).toList ++ " byte(s) unreadable)".toList :=
        List.not_mem_append (newline_notMem_intString n) (by decide)
      exact List.not_mem_cons_of_ne_of_not_mem (by decide) hend
  · refine List.forall_mem_cons.mpr ⟨rfl, fun line hline => ?_⟩
    obtain ⟨n, rfl⟩ := hunreadable line hline
    rfl

/-- What is printed is lines: of the header, and then the rows. -/
lemma formatMemoryRead_eq {decode : String → Option (List UInt8)} {body : Value}
    {address b64 : String} {data : List UInt8} {base : UInt64}
    (haddress : (body.get "address").bind Value.asStr = some address)
    (hbase : parseAddress address.toList = some base)
    (hdata : (body.get "data").bind Value.asStr = some b64) (hdecode : decode b64 = some data) :
    ∃ above, Above above ∧ formatMemoryRead decode body =
      .ok ((above ++ rowsFrom base data).flatMap (· ++ ['\n'])) := by
  refine ⟨_, above_lines (newline_notMem_of_parseAddress hbase) data
    ((body.get "unreadableBytes").bind Value.asI64), ?_⟩
  have hrows : (rowsFrom base data).flatMap (· ++ ['\n']) =
      (chunks data).zipIdx.flatMap fun (chunk, i) => row (some base) i chunk ++ ['\n'] := by
    rw [rowsFrom, List.flatMap_map]
  unfold formatMemoryRead
  simp only [haddress, hdata, hdecode, Option.getD_some, hbase, ← hrows,
    ← headerLine_append_newline, ← unreadableLine_append_newline]
  cases (body.get "unreadableBytes").bind Value.asI64 with
  | none =>
    rw [List.cons_append, List.flatMap_cons]
    rfl
  | some n =>
    rw [List.cons_append, List.flatMap_cons, Option.toList_some, List.map_singleton,
      List.singleton_append, List.flatMap_cons]

/-- **A dump reads back**: the addresses count up from the first by sixteen and wrap around, the
columns are the bytes in order, and the sidebar is at one column in all rows. -/
theorem dump_reads_back (decode : String → Option (List UInt8)) (body : Value)
    {address b64 : String} {data : List UInt8} {base : UInt64}
    (haddress : (body.get "address").bind Value.asStr = some address)
    (hbase : parseAddress address.toList = some base)
    (hdata : (body.get "data").bind Value.asStr = some b64) (hdecode : decode b64 = some data) :
    ∃ text, formatMemoryRead decode body = .ok text ∧ ReadsBack base data (dumpRows text) := by
  obtain ⟨front, hfront, htext⟩ := formatMemoryRead_eq haddress hbase hdata hdecode
  refine ⟨_, htext, ?_⟩
  rw [dumpRows_lines hfront]
  exact readsBack_rowsFrom base data

/-- Eighteen bytes, of which the last two are at the addresses `0` and `1`. -/
def wrapping : List UInt8 := (List.range 16 ++ [0x67, 0x68]).map UInt8.ofNat

/-- The base64 text of these bytes, decoded. -/
def decodeWrapping (b64 : String) : Option (List UInt8) :=
  if b64 = "AAECAwQFBgcICQoLDA0OD2do" then some wrapping else none

theorem dump_reads_back_wrapping :
    (∃ text, formatMemoryRead decodeWrapping
        (.object [("address", .string "0xfffffffffffffff0"),
          ("data", .string "AAECAwQFBgcICQoLDA0OD2do")]) = .ok text ∧
      ReadsBack 0xfffffffffffffff0 wrapping (dumpRows text)) ∧
    (0xfffffffffffffff0 + 16 : UInt64) = 0 :=
  ⟨dump_reads_back _ _ rfl (by decide) rfl (if_pos rfl), by decide⟩

end DappyCore.Memory
