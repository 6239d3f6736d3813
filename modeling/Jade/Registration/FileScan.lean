/-
**Reading the lines of a multisig file (`process/register_multisig.c`).**

The file is not copied: two pointers run through it, to the beginning and to the end of a line. The
end of the last line is the end of the file when no newline is there. Behind the colon of a line
white space is skipped, and the loop that does so looks at the byte behind the line before it
notices that it has reached it. For the last line that byte is not part of the file.

Main definitions:

* `Jade.readAt`, `Jade.memchrAt` — what is read of the file, and only there;
* `Jade.nextLineFrom`, `Jade.splitLineAt`, `Jade.scanFile` — the code, on positions;
* `Jade.danglingLine`, `Jade.dangling` — a last line with nothing behind its colon.

Main results:

* `Jade.nextLineFrom_spec` — the next line is the next one of `fileLines`;
* `Jade.splitLineAt_eq` — a line is split as `splitLine` does, unless it is the last and dangling;
* `Jade.scanFile_eq` — **the file is processed line by line, within its limits, up to a dangling
  end**.
-/

import Jade.Registration.ImportFile

set_option relaxedAutoImplicit false
set_option autoImplicit false

namespace Jade

open Exec

/-! ### Positions in the file -/

/-- The byte at a position of the file. -/
def readAt (file : Bytes) (p : ℕ) : Except Fault UInt8 :=
  match file[p]? with
  | some c => .ok c
  | none => .error .overflow

/-- The bytes between two positions of the file. -/
def readRange (file : Bytes) (p e : ℕ) : Except Fault Bytes :=
  if e ≤ file.length then .ok ((file.drop p).take (e - p)) else .error .overflow

/-- `memchr` between two positions of the file: where the byte is. -/
def memchrAt (file : Bytes) (c : UInt8) (p e : ℕ) : Except Fault (Option ℕ) :=
  (readRange file p e).map fun bytes => (memchr c bytes).map (p + ·)

/-- The end of the line that begins at a position. -/
def lineEnd (file : Bytes) (ptr : ℕ) : Except Fault ℕ :=
  (memchrAt file 0x0a ptr file.length).map (·.getD file.length)

theorem le_of_lineEnd {file : Bytes} {ptr eol : ℕ} (hptr : ptr ≤ file.length)
    (h : lineEnd file ptr = .ok eol) : ptr ≤ eol := by
  rw [lineEnd, memchrAt, readRange, if_pos (Nat.le_refl _)] at h
  obtain rfl := Except.ok.inj h
  dsimp only
  cases memchr 0x0a ((file.drop ptr).take (file.length - ptr)) with
  | none => exact hptr
  | some n => exact Nat.le_add_right ptr n

/-- `get_next_line`, from the position behind the last line on: the limits of the line, or nothing
when the file is exhausted. -/
def nextLineFrom (file : Bytes) (ptr : ℕ) : Except Fault (Option (ℕ × ℕ)) :=
  if _hptr : file.length < ptr then .error .overflow
  else
    match _h : lineEnd file ptr with
    | .error f => .error f
    | .ok eol =>
        -- skip if line empty or a comment
        if ptr < eol then
          match readAt file ptr with
          | .error f => .error f
          | .ok c =>
              if c = 0x23 then
                if file.length ≤ eol then .ok none else nextLineFrom file (eol + 1)
              else .ok (some (ptr, eol))
        else if file.length ≤ eol then .ok none else nextLineFrom file (eol + 1)
  termination_by file.length + 1 - ptr
  decreasing_by
    all_goals
      have := le_of_lineEnd (Nat.not_lt.1 _hptr) _h
      omega

/-- The loop that skips the delimiter and white space; it looks at the byte behind `p` first. -/
def skipSpaces (file : Bytes) (eol p : ℕ) : Except Fault ℕ :=
  if p < eol then
    match readAt file (p + 1) with
    | .error f => .error f
    | .ok c => if isSpace c then skipSpaces file eol (p + 1) else .ok (p + 1)
  else .ok p
  termination_by eol - p

/-- `split_line`, into an array of 128 bytes -/
def splitLineAt (file : Bytes) (ptr eol : ℕ) : Except Fault (Option (Bytes × Bytes)) := do
  match ← memchrAt file 0x3a ptr eol with
  | none => return none
  | some colon =>
      if colon ≤ ptr then return none
      else
        let p ← skipSpaces file eol colon
        if eol - p = 0 ∨ 128 ≤ eol - p then return none
        else return some (← readRange file ptr colon, ← readRange file p eol)

/-! ### Lines and positions -/

/-- The last line of a file, behind the last newline. -/
def lastLine (file : Bytes) : Bytes := (file.splitOn 0x0a).getLastD []

/-- A line that is read, and that has a name, a colon and nothing but white space behind it. -/
def danglingLine (line : Bytes) : Bool :=
  line.head? != some 0x23 &&
    match line.dropWhile (· ≠ 0x3a) with
    | [] => false
    | _ :: rest => !(line.takeWhile (· ≠ 0x3a)).isEmpty && rest.all isSpace

/-- The last line of the file is dangling. -/
def dangling (file : Bytes) : Bool := danglingLine (lastLine file)

theorem lastLine_eq_self {line : Bytes} (h : 0x0a ∉ line) : lastLine line = line := by
  rw [lastLine, List.splitOn_eq_singleton h]
  rfl

theorem lastLine_append {line : Bytes} (h : 0x0a ∉ line) (rest : Bytes) :
    lastLine (line ++ 0x0a :: rest) = lastLine rest := by
  rw [lastLine, List.splitOn_append_cons_self, List.splitOn_eq_singleton h, List.singleton_append,
    lastLine]
  cases hrest : rest.splitOn 0x0a with
  | nil => exact absurd hrest (List.splitOn_ne_nil _ _)
  | cons first others => rfl

theorem fileLines_append {line : Bytes} (h : 0x0a ∉ line) (rest : Bytes) :
    fileLines (line ++ 0x0a :: rest) = fileLines line ++ fileLines rest := by
  have hsplit : (line ++ 0x0a :: rest).splitOn 0x0a = [line] ++ rest.splitOn 0x0a := by
    rw [List.splitOn_append_cons_self, List.splitOn_eq_singleton h]
  rw [fileLines, textLines, hsplit, List.filter_append, List.filter_append, fileLines, textLines,
    List.splitOn_eq_singleton h, fileLines, textLines]

theorem fileLines_eq_nil {line : Bytes} (h : 0x0a ∉ line)
    (hskip : line = [] ∨ line.head? = some 0x23) : fileLines line = [] := by
  rw [fileLines, textLines, List.splitOn_eq_singleton h]
  rcases hskip with rfl | hhead
  · rfl
  · cases line with
    | nil => rfl
    | cons c line =>
        obtain rfl : c = 0x23 := by simpa using hhead
        rfl

theorem fileLines_eq_singleton {line : Bytes} (h : 0x0a ∉ line) (hne : line ≠ [])
    (hhead : line.head? ≠ some 0x23) : fileLines line = [line] := by
  rw [fileLines, textLines, List.splitOn_eq_singleton h]
  simp [hne, hhead]

/-- The end of a line, and what stands behind it. -/
theorem lineEnd_spec {file : Bytes} {ptr : ℕ} (hptr : ptr ≤ file.length) :
    ∃ line, 0x0a ∉ line ∧ lineEnd file ptr = .ok (ptr + line.length) ∧
      (file.drop ptr = line ∨ ∃ rest, file.drop ptr = line ++ 0x0a :: rest) := by
  have htake : (file.drop ptr).take (file.length - ptr) = file.drop ptr :=
    List.take_of_length_le (by rw [List.length_drop])
  have hrun : lineEnd file ptr =
      .ok (((memchr 0x0a (file.drop ptr)).map (ptr + ·)).getD file.length) := by
    rw [lineEnd, memchrAt, readRange, if_pos (Nat.le_refl _), htake]
    rfl
  cases hfind : memchr 0x0a (file.drop ptr) with
  | none =>
      refine ⟨file.drop ptr, memchr_eq_none.1 hfind, ?_, .inl rfl⟩
      rw [hrun, hfind, List.length_drop, Nat.add_sub_cancel' hptr]
      rfl
  | some n =>
      obtain ⟨hnot, hcut, hlen⟩ := memchr_eq_some hfind
      refine ⟨(file.drop ptr).take n, hnot, ?_, .inr ⟨_, hcut⟩⟩
      rw [hrun, hfind, hlen]
      rfl

theorem readAt_eq {file : Bytes} {p : ℕ} {c : UInt8} {rest : Bytes} (h : file.drop p = c :: rest) :
    readAt file p = .ok c := by
  have hget : file[p]? = some c := by
    rw [← List.head?_drop, h]
    rfl
  rw [readAt, hget]

/-- One turn of the scan, with the line it finds. -/
theorem nextLineFrom_eq {file line : Bytes} {ptr : ℕ} (hptr : ptr ≤ file.length)
    (hend : lineEnd file ptr = .ok (ptr + line.length)) :
    nextLineFrom file ptr =
      if ptr < ptr + line.length then
        match readAt file ptr with
        | .error f => .error f
        | .ok c =>
            if c = 0x23 then
              if file.length ≤ ptr + line.length then .ok none
              else nextLineFrom file (ptr + line.length + 1)
            else .ok (some (ptr, ptr + line.length))
      else if file.length ≤ ptr + line.length then .ok none
      else nextLineFrom file (ptr + line.length + 1) := by
  rw [nextLineFrom, dif_neg (by omega)]
  split
  · next hf =>
      rw [hend] at hf
      cases hf
  · next eol hok =>
      rw [hend] at hok
      obtain rfl := Except.ok.inj hok
      rfl

/-- An empty line and a comment are skipped. -/
theorem nextLineFrom_skip {file line : Bytes} {ptr : ℕ} (hptr : ptr ≤ file.length)
    (hend : lineEnd file ptr = .ok (ptr + line.length)) (hstart : line <+: file.drop ptr)
    (hskip : line = [] ∨ line.head? = some 0x23) :
    nextLineFrom file ptr =
      if file.length ≤ ptr + line.length then .ok none
      else nextLineFrom file (ptr + line.length + 1) := by
  rw [nextLineFrom_eq hptr hend]
  rcases hskip with rfl | hhead
  · rw [List.length_nil, Nat.add_zero, if_neg (Nat.lt_irrefl _)]
  · obtain ⟨cs, rfl⟩ := List.head?_eq_some_iff.1 hhead
    obtain ⟨rest, hrest⟩ := hstart
    have hlt : ptr < ptr + ((0x23 :: cs : Bytes)).length := by
      rw [List.length_cons]
      omega
    rw [if_pos hlt, readAt_eq hrest.symm]
    rfl

/-- Any other line is the next one. -/
theorem nextLineFrom_read {file line : Bytes} {ptr : ℕ} (hptr : ptr ≤ file.length)
    (hend : lineEnd file ptr = .ok (ptr + line.length)) (hstart : line <+: file.drop ptr)
    (hne : line ≠ []) (hhead : line.head? ≠ some 0x23) :
    nextLineFrom file ptr = .ok (some (ptr, ptr + line.length)) := by
  rw [nextLineFrom_eq hptr hend]
  cases line with
  | nil => exact absurd rfl hne
  | cons c cs =>
      obtain ⟨rest, hrest⟩ := hstart
      have hlt : ptr < ptr + (c :: cs).length := by
        rw [List.length_cons]
        omega
      rw [if_pos hlt, readAt_eq hrest.symm]
      dsimp only
      rw [if_neg fun hc => hhead (congrArg some hc)]

/-- The limits of a line of `file.drop ptr` that is read: the line, and what stands behind it. -/
structure NextLine (file : Bytes) (ptr p : ℕ) (line : Bytes) : Prop where
  le : ptr ≤ p
  ne_nil : line ≠ []
  notMem : 0x0a ∉ line
  head : line.head? ≠ some 0x23
  /-- it is the last line, or a newline ends it -/
  follow : (file.drop p = line ∧ fileLines (file.drop ptr) = [line] ∧
      lastLine (file.drop ptr) = line) ∨
    ∃ rest, file.drop p = line ++ 0x0a :: rest ∧
      fileLines (file.drop ptr) = line :: fileLines rest ∧
      lastLine (file.drop ptr) = lastLine rest

/-- A line that is not skipped is read at once. -/
theorem nextLine_self {file line : Bytes} {ptr : ℕ} (hline : 0x0a ∉ line)
    (hfollow : file.drop ptr = line ∨ ∃ rest, file.drop ptr = line ++ 0x0a :: rest)
    (hne : line ≠ []) (hhead : line.head? ≠ some 0x23) : NextLine file ptr ptr line := by
  have hsingle := fileLines_eq_singleton hline hne hhead
  refine ⟨Nat.le_refl _, hne, hline, hhead, ?_⟩
  rcases hfollow with hlast | ⟨rest, hrest⟩
  · left
    rw [hlast]
    exact ⟨rfl, hsingle, lastLine_eq_self hline⟩
  · right
    refine ⟨rest, hrest, ?_, ?_⟩
    · rw [hrest, fileLines_append hline, hsingle]
      rfl
    · rw [hrest, lastLine_append hline]

/-- A line that is skipped leaves the lines behind it. -/
theorem drop_behind {file line rest : Bytes} {ptr : ℕ} (hline : 0x0a ∉ line)
    (hskip : line = [] ∨ line.head? = some 0x23) (hrest : file.drop ptr = line ++ 0x0a :: rest) :
    fileLines (file.drop ptr) = fileLines (file.drop (ptr + line.length + 1)) ∧
      lastLine (file.drop ptr) = lastLine (file.drop (ptr + line.length + 1)) := by
  have hdrop : file.drop (ptr + line.length + 1) = rest := by
    rw [Nat.add_assoc, ← List.drop_drop, hrest, ← List.drop_drop, List.drop_left]
    rfl
  rw [hdrop, hrest, fileLines_append hline, fileLines_eq_nil hline hskip, lastLine_append hline]
  exact ⟨rfl, rfl⟩

theorem NextLine.behind {file line rest line' : Bytes} {ptr p : ℕ} (hline : 0x0a ∉ line)
    (hskip : line = [] ∨ line.head? = some 0x23) (hrest : file.drop ptr = line ++ 0x0a :: rest)
    (h : NextLine file (ptr + line.length + 1) p line') : NextLine file ptr p line' := by
  obtain ⟨hlines, hlastLine⟩ := drop_behind hline hskip hrest
  obtain ⟨hle, hne, hnot, hhead, hbehind⟩ := h
  rw [← hlines, ← hlastLine] at hbehind
  exact ⟨by omega, hne, hnot, hhead, hbehind⟩

theorem danglingLine_of_skip {line : Bytes} (hskip : line = [] ∨ line.head? = some 0x23) :
    danglingLine line = false := by
  rcases hskip with rfl | hhead
  · rfl
  · rw [danglingLine, hhead]
    rfl

/-- The next line that is read is the next one of the lines of the file. -/
theorem nextLineFrom_spec {file : Bytes} {ptr : ℕ} (hptr : ptr ≤ file.length) :
    (nextLineFrom file ptr = .ok none ∧ fileLines (file.drop ptr) = [] ∧
        dangling (file.drop ptr) = false) ∨
      ∃ p line, nextLineFrom file ptr = .ok (some (p, p + line.length)) ∧
        NextLine file ptr p line := by
  generalize hn : file.length - ptr = n
  induction n using Nat.strong_induction_on generalizing ptr with
  | _ n ih =>
      obtain ⟨line, hline, hend, hfollow⟩ := lineEnd_spec hptr
      have hstart : line <+: file.drop ptr := by
        rcases hfollow with hlast | ⟨rest, hrest⟩
        · rw [hlast]
        · exact ⟨0x0a :: rest, hrest.symm⟩
      have hlength : (file.drop ptr).length = file.length - ptr := List.length_drop
      by_cases hskip : line = [] ∨ line.head? = some 0x23
      · have hrun := nextLineFrom_skip hptr hend hstart hskip
        rcases hfollow with hlast | ⟨rest, hrest⟩
        · -- the last line
          rw [hlast] at hlength
          rw [if_pos (by omega)] at hrun
          left
          rw [hlast, dangling, lastLine_eq_self hline]
          exact ⟨hrun, fileLines_eq_nil hline hskip, danglingLine_of_skip hskip⟩
        · -- the scan goes on behind the newline
          rw [hrest, List.length_append, List.length_cons] at hlength
          rw [if_neg (by omega)] at hrun
          obtain ⟨hlines, hlastLine⟩ := drop_behind hline hskip hrest
          rcases ih (file.length - (ptr + line.length + 1)) (by omega) (by omega) rfl with
            ⟨hnone, hnil, hdangling⟩ | ⟨p, line', hsome, hnext⟩
          · left
            rw [dangling, hlastLine]
            exact ⟨hrun.trans hnone, hlines.trans hnil, hdangling⟩
          · exact .inr ⟨p, line', hrun.trans hsome, hnext.behind hline hskip hrest⟩
      · obtain ⟨hne, hhead⟩ := not_or.1 hskip
        exact .inr ⟨ptr, line, nextLineFrom_read hptr hend hstart hne hhead,
          nextLine_self hline hfollow hne hhead⟩

/-! ### Splitting a line -/

/-- Skipping white space ends at the value, or at the end of the line, unless the file ends there
as well. -/
theorem skipSpaces_eq {file rest tail : Bytes} {p eol : ℕ} (hdrop : file.drop (p + 1) = rest ++ tail)
    (heol : eol = p + 1 + rest.length) (htail : tail = [] ∨ tail.head? = some 0x0a) :
    skipSpaces file eol p =
      if rest.all isSpace && tail.isEmpty then .error .overflow
      else .ok (eol - (rest.dropWhile isSpace).length) := by
  induction rest generalizing p with
  | nil =>
      have hlt : p < eol := by
        rw [List.length_nil] at heol
        omega
      rw [skipSpaces, if_pos hlt]
      rcases htail with rfl | hhead
      · have hnone : file[p + 1]? = none := by
          rw [← List.head?_drop, hdrop]
          rfl
        rw [readAt, hnone]
        rfl
      · cases tail with
        | nil => cases hhead
        | cons c tail =>
            obtain rfl : c = 0x0a := Option.some.inj hhead
            have hend : ¬p + 1 < eol := by
              rw [List.length_nil] at heol
              omega
            rw [readAt_eq hdrop]
            dsimp only
            rw [if_pos (by decide), skipSpaces, if_neg hend]
            simp only [List.all_nil, List.isEmpty_cons, Bool.and_false, Bool.false_eq_true, if_false,
              List.dropWhile_nil, List.length_nil, Nat.sub_zero]
            rw [heol, List.length_nil, Nat.add_zero]
  | cons c rest ih =>
      rw [List.length_cons] at heol
      rw [skipSpaces, if_pos (by omega), readAt_eq hdrop]
      dsimp only
      by_cases hc : isSpace c = true
      · have hdrop' : file.drop (p + 1 + 1) = rest ++ tail := by
          rw [← List.drop_drop, hdrop]
          rfl
        rw [if_pos hc, ih hdrop' (by omega), List.all_cons, hc, Bool.true_and,
          List.dropWhile_cons_of_pos hc]
      · rw [if_neg hc, List.all_cons, Bool.eq_false_of_not_eq_true hc, Bool.false_and,
          Bool.false_and, if_neg Bool.false_ne_true, List.dropWhile_cons_of_neg hc, List.length_cons,
          heol]
        congr 1
        omega

theorem readRange_eq {file bytes after : Bytes} {p e : ℕ} (hdrop : file.drop p = bytes ++ after)
    (he : e = p + bytes.length) (hp : p ≤ file.length) : readRange file p e = .ok bytes := by
  have hlength : (file.drop p).length = file.length - p := List.length_drop
  rw [hdrop, List.length_append] at hlength
  rw [readRange, if_pos (by omega), he, Nat.add_sub_cancel_left, hdrop, List.take_left]

/-- A line is split as `splitLine` does, unless it is the last one and dangling. -/
theorem splitLineAt_eq {file line tail : Bytes} {p : ℕ} (hp : p ≤ file.length)
    (hdrop : file.drop p = line ++ tail) (htail : tail = [] ∨ tail.head? = some 0x0a)
    (hhead : line.head? ≠ some 0x23) :
    splitLineAt file p (p + line.length) =
      if danglingLine line && tail.isEmpty then .error .overflow else .ok (splitLine line) := by
  have hfind : memchrAt file 0x3a p (p + line.length) = .ok ((memchr 0x3a line).map (p + ·)) := by
    rw [memchrAt, readRange_eq hdrop rfl hp]
    rfl
  rw [splitLineAt, hfind, ok_bind]
  cases hcolon : memchr 0x3a line with
  | none =>
      have hnil : line.dropWhile (· ≠ 0x3a) = [] := by
        rw [List.dropWhile_eq_nil_iff]
        intro c hc
        exact decide_eq_true fun heq => memchr_eq_none.1 hcolon (heq ▸ hc)
      rw [splitLine, hnil, danglingLine, hnil]
      simp
      rfl
  | some n =>
      obtain ⟨hnot, hcut, hlen⟩ := memchr_eq_some hcolon
      obtain ⟨hkey, hrest⟩ := span_separator hnot (line.drop (n + 1))
      rw [← hcut] at hkey hrest
      generalize hname : line.take n = name at hnot hcut hlen hkey
      generalize hbehind : line.drop (n + 1) = behind at hcut hrest
      have hlength : line.length = n + 1 + behind.length := by
        rw [hcut, List.length_append, List.length_cons, hlen]
        omega
      have hsplit : splitLine line =
          if name.isEmpty || (behind.dropWhile isSpace).isEmpty ||
            decide (128 ≤ (behind.dropWhile isSpace).length) then none
          else some (name, behind.dropWhile isSpace) := by
        rw [splitLine, hrest, hkey]
      have hdangling : danglingLine line = (!name.isEmpty && behind.all isSpace) := by
        rw [danglingLine, hrest, hkey, bne_iff_ne.2 hhead, Bool.true_and]
      rw [hsplit, hdangling, Option.map_some]
      dsimp only
      by_cases hempty : name = []
      · have hn : n = 0 := by rw [← hlen, hempty, List.length_nil]
        rw [if_pos (by omega), hempty]
        rfl
      · have hn : n ≠ 0 := by
          rw [← hlen]
          exact fun h => hempty (List.length_eq_zero_iff.1 h)
        have hbehindAt : file.drop (p + n + 1) = behind ++ tail := by
          rw [Nat.add_assoc, ← List.drop_drop, hdrop, hcut, List.append_assoc, List.cons_append,
            ← List.drop_drop, ← hlen, List.drop_left]
          rfl
        have hvalue : (behind.dropWhile isSpace).length ≤ behind.length :=
          (List.dropWhile_suffix isSpace).length_le
        have hname' : name.isEmpty = false := by simpa using hempty
        rw [if_neg (by omega), skipSpaces_eq hbehindAt (by omega) htail, hname', Bool.not_false,
          Bool.true_and]
        by_cases hbeyond : (behind.all isSpace && tail.isEmpty) = true
        · rw [if_pos hbeyond, if_pos hbeyond]
          rfl
        · rw [if_neg hbeyond, if_neg hbeyond, ok_bind, Bool.false_or]
          have hwidth : p + line.length - (p + line.length - (behind.dropWhile isSpace).length) =
              (behind.dropWhile isSpace).length := by omega
          rw [hwidth]
          by_cases hbad : (behind.dropWhile isSpace).length = 0 ∨
              128 ≤ (behind.dropWhile isSpace).length
          · rw [if_pos hbad, if_pos]
            · rfl
            · rw [Bool.or_eq_true, decide_eq_true_eq, List.isEmpty_iff]
              exact hbad.imp List.length_eq_zero_iff.1 id
          · have hname : readRange file p (p + n) = .ok name := by
              have hat : file.drop p = name ++ (0x3a :: behind ++ tail) := by
                rw [hdrop, hcut, List.append_assoc]
              exact readRange_eq hat (by rw [hlen]) hp
            have hread : readRange file (p + line.length - (behind.dropWhile isSpace).length)
                (p + line.length) = .ok (behind.dropWhile isSpace) := by
              have hline : line ++ tail = (name ++ 0x3a :: behind.takeWhile isSpace) ++
                  (behind.dropWhile isSpace ++ tail) := by
                have hparts := List.takeWhile_append_dropWhile (p := isSpace) (l := behind)
                calc line ++ tail = (name ++ 0x3a :: (behind.takeWhile isSpace ++
                      behind.dropWhile isSpace)) ++ tail := by rw [hparts, ← hcut]
                  _ = _ := by simp only [List.append_assoc, List.cons_append]
              have hlenAll := congrArg List.length hline
              have hlengthFile : (file.drop p).length = file.length - p := List.length_drop
              simp only [List.length_append] at hlenAll
              rw [hdrop, List.length_append] at hlengthFile
              have hstart : p + line.length - (behind.dropWhile isSpace).length =
                  p + (name ++ 0x3a :: behind.takeWhile isSpace).length := by
                rw [List.length_append]
                omega
              have hat : file.drop (p + line.length - (behind.dropWhile isSpace).length) =
                  behind.dropWhile isSpace ++ tail := by
                rw [hstart, ← List.drop_drop, hdrop, hline, List.drop_left]
              exact readRange_eq hat (by omega) (by omega)
            rw [if_neg hbad, if_neg, hname, hread]
            · rfl
            · rw [Bool.or_eq_true, decide_eq_true_eq, List.isEmpty_iff, ← List.length_eq_zero_iff]
              exact hbad

/-! ### The loop -/

theorem le_of_nextLineFrom {file : Bytes} {ptr p eol : ℕ}
    (h : nextLineFrom file ptr = .ok (some (p, eol))) : ptr ≤ eol := by
  by_cases hptr : ptr ≤ file.length
  · rcases nextLineFrom_spec hptr with ⟨hnone, -⟩ | ⟨p', line, hsome, hnext⟩
    · rw [hnone] at h
      cases h
    · rw [hsome] at h
      cases h
      exact Nat.le_add_right_of_le hnext.le
  · rw [nextLineFrom, dif_pos (Nat.not_le.1 hptr)] at h
    cases h

section Scan

variable {K : Type} (L : FileLib K)

/-- What the loop does with a line, between its limits. -/
def processLineAt (testnet : Bool) (file : Bytes) (ptr eol : ℕ) (st : FileState) :
    Except RegisterStop FileState := do
  match ← verified (splitLineAt file ptr eol) with
  | none => rejectFile "Invalid multisig file"
  | some (name, value) => readField L testnet name value st

theorem processLineAt_eq {testnet : Bool} {file line : Bytes} {p eol : ℕ}
    (h : splitLineAt file p eol = .ok (splitLine line)) (st : FileState) :
    processLineAt L testnet file p eol st = processLine L testnet st line := by
  rw [processLineAt, h, processLine]
  cases splitLine line with
  | none => rfl
  | some field => rfl

/-- The loop of `register_multisig_file`. -/
def scanFrom (testnet : Bool) (file : Bytes) (ptr : ℕ) (st : FileState) :
    Except RegisterStop FileState :=
  match _h : nextLineFrom file ptr with
  | .error f => .error (.fault f)
  | .ok none => .ok st
  | .ok (some (p, eol)) =>
      match processLineAt L testnet file p eol st with
      | .error e => .error e
      | .ok st => if file.length ≤ eol then .ok st else scanFrom testnet file (eol + 1) st
  termination_by file.length + 1 - ptr
  decreasing_by
    have := le_of_nextLineFrom _h
    omega

/-- The lines are processed one after another; when the last one is dangling, the byte behind the
file is read. -/
def processLines (testnet : Bool) (lines : List Bytes) (isDangling : Bool) (st : FileState) :
    Except RegisterStop FileState :=
  if isDangling then
    lines.dropLast.foldlM (processLine L testnet) st >>= fun _ => .error (.fault .overflow)
  else lines.foldlM (processLine L testnet) st

theorem mem_fileLines_of_dangling {file : Bytes} (h : dangling file = true) :
    lastLine file ∈ fileLines file := by
  rw [dangling, danglingLine, Bool.and_eq_true, bne_iff_ne] at h
  obtain ⟨hhead, hcolon⟩ := h
  have hne : lastLine file ≠ [] := by
    intro hnil
    rw [hnil] at hcolon
    cases hcolon
  have hmem : lastLine file ∈ file.splitOn 0x0a := by
    rw [lastLine, List.getLastD_eq_getLast?, List.getLast?_eq_some_getLast (List.splitOn_ne_nil _ _)]
    exact List.getLast_mem _
  rw [fileLines, textLines, List.mem_filter, List.mem_filter]
  exact ⟨⟨hmem, by simpa using hne⟩, by simpa using hhead⟩

theorem processLines_cons (testnet : Bool) (line : Bytes) {lines : List Bytes} {isDangling : Bool}
    (hne : isDangling = true → lines ≠ []) (st : FileState) :
    processLines L testnet (line :: lines) isDangling st =
      processLine L testnet st line >>= processLines L testnet lines isDangling := by
  cases isDangling with
  | false => rfl
  | true =>
      rw [processLines, if_pos rfl, List.dropLast_cons_of_ne_nil (hne rfl), List.foldlM_cons,
        bind_assoc]
      rfl

/-- The loop processes the lines of the file that are still ahead. -/
theorem scanFrom_eq {testnet : Bool} {file : Bytes} {ptr : ℕ} (hptr : ptr ≤ file.length)
    (st : FileState) :
    scanFrom L testnet file ptr st = processLines L testnet (fileLines (file.drop ptr))
      (dangling (file.drop ptr)) st := by
  generalize hn : file.length - ptr = n
  induction n using Nat.strong_induction_on generalizing ptr st with
  | _ n ih =>
      rw [scanFrom]
      rcases nextLineFrom_spec hptr with ⟨hnone, hnil, hend⟩ | ⟨p, line, hsome, hnext⟩
      · rw [hnil, hend]
        split
        · next hrun =>
            rw [hnone] at hrun
            cases hrun
        · rfl
        · next hrun =>
            rw [hnone] at hrun
            cases hrun
      · obtain ⟨hle, hne, hnot, hhead, hfollow⟩ := hnext
        have hpos : 0 < line.length := List.length_pos_iff.2 hne
        have hlength : (file.drop p).length = file.length - p := List.length_drop
        split
        · next hrun =>
            rw [hsome] at hrun
            cases hrun
        · next hrun =>
            rw [hsome] at hrun
            cases hrun
        · next p' eol hrun =>
            rw [hsome] at hrun
            cases hrun
            rcases hfollow with ⟨hdrop, hlines, hlast⟩ | ⟨rest, hdrop, hlines, hlast⟩
            · -- the last line
              rw [hdrop] at hlength
              have hsplit := @splitLineAt_eq file line [] p (by omega)
                 (by rw [hdrop, List.append_nil]) (.inl rfl) hhead
              rw [List.isEmpty_nil, Bool.and_true] at hsplit
              rw [hlines, dangling, hlast]
              cases hend : danglingLine line with
              | true =>
                  rw [hend, if_pos rfl] at hsplit
                  rw [processLineAt, hsplit]
                  rfl
              | false =>
                  have heol : file.length ≤ p + line.length := by omega
                  rw [hend, if_neg Bool.false_ne_true] at hsplit
                  rw [processLineAt_eq L hsplit, processLines, if_neg Bool.false_ne_true,
                    List.foldlM_cons]
                  cases processLine L testnet st line with
                  | error e => rfl
                  | ok st' =>
                      dsimp only
                      rw [if_pos heol]
                      rfl
            · -- a newline ends the line
              have hlen : (line ++ 0x0a :: rest).length = file.length - p := by rw [← hdrop, hlength]
              rw [List.length_append, List.length_cons] at hlen
              have hbehind : file.drop (p + line.length + 1) = rest := by
                rw [Nat.add_assoc, ← List.drop_drop, hdrop, ← List.drop_drop, List.drop_left]
                rfl
              have hsplit := @splitLineAt_eq file line (0x0a :: rest) p (by omega) hdrop (.inr rfl)
                hhead
              rw [List.isEmpty_cons, Bool.and_false, if_neg Bool.false_ne_true] at hsplit
              have hrest : dangling rest = true → fileLines rest ≠ [] := fun hend =>
                List.ne_nil_of_mem (mem_fileLines_of_dangling hend)
              have heol : ¬file.length ≤ p + line.length := by omega
              rw [hlines, dangling, hlast, ← dangling, processLines_cons L testnet line hrest,
                processLineAt_eq L hsplit]
              cases processLine L testnet st line with
              | error e => rfl
              | ok st' =>
                  dsimp only
                  rw [if_neg heol, ih (file.length - (p + line.length + 1)) (by omega) (by omega) st'
                    rfl, hbehind]
                  rfl

end Scan

end Jade
