import Mathlib.Data.List.DropRight

/-!
# The string functions the parsers use

Text is a list of Unicode scalar values. The functions below are the ones of
Rust's `str` that the SDP readers call, with the same treatment of line ends
and of the `White_Space` characters.
-/

namespace RtcTunnel.Core

set_option autoImplicit false

abbrev Text := List Char

/-- The characters with the Unicode property `White_Space`. -/
def isWhitespace (c : Char) : Bool :=
  let n := c.toNat
  (9 ≤ n && n ≤ 13) || n == 0x20 || n == 0x85 || n == 0xA0 || n == 0x1680 ||
    (0x2000 ≤ n && n ≤ 0x200A) || n == 0x2028 || n == 0x2029 || n == 0x202F ||
    n == 0x205F || n == 0x3000

namespace Text

def trim (s : Text) : Text := (s.dropWhile isWhitespace).rdropWhile isWhitespace

/-- A line without its end: `\n`, with the `\r` before it if there is one. The
argument is the line read so far, last character first. -/
def closeLine : Text → Text
  | '\r' :: cs => cs.reverse
  | cs => cs.reverse

/-- `str::lines`, with the line being read in reverse. A last line without a
`\n` keeps a `\r` at its end, and an empty one is no line. -/
def linesFrom : Text → Text → List Text
  | cur, [] => if cur.isEmpty then [] else [cur.reverse]
  | cur, '\n' :: cs => closeLine cur :: linesFrom [] cs
  | cur, c :: cs => linesFrom (c :: cur) cs

def lines (s : Text) : List Text := linesFrom [] s

def stripPrefix : Text → Text → Option Text
  | s, [] => some s
  | [], _ :: _ => none
  | c :: cs, p :: ps => if c = p then stripPrefix cs ps else none

/-- `str::split_once`: what stands before and after the first `c`. -/
def splitOnce (c : Char) : Text → Option (Text × Text)
  | [] => none
  | d :: ds => if d = c then some ([], ds) else (splitOnce c ds).map fun p => (d :: p.1, p.2)

def splitWhitespace (s : Text) : List Text := (s.splitOnP isWhitespace).filter (!·.isEmpty)

/-- A text that ends with its last line. -/
def EndsLine (s : Text) : Prop := ∃ front, s = front ++ ['\n']

theorem endsLine_line (s : Text) : EndsLine (s ++ ['\r', '\n']) :=
  ⟨s ++ ['\r'], by rw [List.append_assoc]; rfl⟩

theorem EndsLine.append {s : Text} (front : Text) (h : EndsLine s) : EndsLine (front ++ s) := by
  obtain ⟨middle, rfl⟩ := h
  exact ⟨front ++ middle, (List.append_assoc ..).symm⟩

theorem linesFrom_append (front rest cur : Text) :
    linesFrom cur (front ++ '\n' :: rest) = linesFrom cur (front ++ ['\n']) ++ lines rest := by
  induction front generalizing cur with
  | nil => simp [linesFrom, lines]
  | cons c front ih =>
    by_cases hc : c = '\n'
    · rw [hc, List.cons_append, List.cons_append, linesFrom, linesFrom, ih, List.cons_append]
    · rw [List.cons_append, List.cons_append, linesFrom.eq_3 _ _ _ (by simpa using hc),
        linesFrom.eq_3 _ _ _ (by simpa using hc), ih]

theorem lines_append {s : Text} (h : EndsLine s) (rest : Text) :
    lines (s ++ rest) = lines s ++ lines rest := by
  obtain ⟨front, rfl⟩ := h
  rw [lines, List.append_assoc, List.singleton_append, linesFrom_append]
  rfl

/-- A line with its end is read as that line. -/
theorem lines_line {s : Text} (h : '\n' ∉ s) : lines (s ++ ['\r', '\n']) = [s] := by
  have hf : ∀ cur : Text, linesFrom cur (s ++ ['\r', '\n']) = [cur.reverse ++ s] := by
    induction s with
    | nil => intro cur; simp [linesFrom, closeLine]
    | cons c s ih =>
      intro cur
      have hc : c ≠ '\n' := fun hc => h (hc ▸ List.mem_cons_self ..)
      rw [List.cons_append, linesFrom.eq_3 _ _ _ (by simpa using hc),
        ih fun hm => h (List.mem_cons_of_mem _ hm)]
      simp
  exact hf []

/-- A text written line by line is read as these lines. -/
theorem lines_foldl {first : Text} {rest : List Text} (h : ∀ line ∈ first :: rest, '\n' ∉ line) :
    lines (rest.foldl (fun text line => text ++ (line ++ ['\r', '\n'])) (first ++ ['\r', '\n'])) =
      first :: rest := by
  have hfront : ∀ (front : Text) (read : List Text), EndsLine front → lines front = read →
      lines (rest.foldl (fun text line => text ++ (line ++ ['\r', '\n'])) front) = read ++ rest := by
    have hrest := fun line hl => h line (List.mem_cons_of_mem _ hl)
    clear h
    induction rest with
    | nil => intro front read _ hr; rw [List.append_nil]; exact hr
    | cons line rest ih =>
      intro front read hf hr
      rw [List.foldl_cons, ih (fun l hl => hrest l (List.mem_cons_of_mem _ hl)) _ (read ++ [line])
        ((endsLine_line line).append front), List.append_assoc, List.singleton_append]
      rw [lines_append hf, hr, lines_line (hrest line (List.mem_cons_self ..))]
  exact hfront _ [first] (endsLine_line first) (lines_line (h first (List.mem_cons_self ..)))

def NoSpace (s : Text) : Prop := ∀ c ∈ s, isWhitespace c = false

instance (s : Text) : Decidable (NoSpace s) := List.decidableBAll _ s

/-- A field of a line. -/
structure Word (s : Text) : Prop where
  ne_nil : s ≠ []
  noSpace : NoSpace s

theorem mem_intercalate {sep c : Char} {words : List Text} (h : c ∈ [sep].intercalate words) :
    c = sep ∨ ∃ word ∈ words, c ∈ word := by
  induction words with
  | nil => cases h
  | cons word words ih =>
    cases words with
    | nil =>
      rw [List.intercalate_singleton] at h
      exact .inr ⟨word, List.mem_singleton_self _, h⟩
    | cons next words =>
      rw [List.intercalate_cons_cons, List.mem_append, List.mem_append] at h
      rcases h with (h | h) | h
      · exact .inr ⟨word, List.mem_cons_self .., h⟩
      · exact .inl (List.mem_singleton.mp h)
      · rcases ih h with h | ⟨w, hw, h⟩
        · exact .inl h
        · exact .inr ⟨w, List.mem_cons_of_mem _ hw, h⟩

theorem splitWhitespace_intercalate {words : List Text} (h : ∀ word ∈ words, Word word) :
    splitWhitespace ([' '].intercalate words) = words := by
  induction words with
  | nil => rfl
  | cons word words ih =>
    have hw := h word (List.mem_cons_self ..)
    have hfilter : ∀ rest : List Text, (word :: rest).filter (!·.isEmpty) =
        word :: rest.filter (!·.isEmpty) := fun rest => by simp [hw.ne_nil]
    cases words with
    | nil =>
      rw [List.intercalate_singleton, splitWhitespace, List.splitOnP_eq_singleton hw.noSpace,
        hfilter, List.filter_nil]
    | cons next words =>
      have ih := ih fun w hm => h w (List.mem_cons_of_mem _ hm)
      rw [splitWhitespace] at ih
      rw [List.intercalate_cons_cons, List.append_assoc, List.singleton_append, splitWhitespace,
        List.splitOnP_append_cons_of_forall_mem hw.noSpace ' ' (by decide),
        hfilter, ih]

theorem trim_eq_self {s : Text} (hhead : ∀ c ∈ s.head?, isWhitespace c = false)
    (hlast : ∀ c ∈ s.getLast?, isWhitespace c = false) : trim s = s := by
  have hfront : s.dropWhile isWhitespace = s := by
    cases s with
    | nil => rfl
    | cons c s => rw [List.dropWhile_cons_of_neg (by simp [hhead c rfl])]
  rw [trim, hfront, List.rdropWhile_eq_self_iff]
  intro hne
  simp [hlast _ (List.getLast?_eq_some_getLast hne)]

theorem NoSpace.trim_eq {s : Text} (h : NoSpace s) : trim s = s :=
  trim_eq_self (fun c hc => h c (List.mem_of_mem_head? hc))
    fun c hc => h c (List.mem_of_mem_getLast? hc)

theorem trim_append {front s : Text} (hne : front ≠ [])
    (hhead : ∀ c ∈ front.head?, isWhitespace c = false)
    (hlast : ∀ c ∈ front.getLast?, isWhitespace c = false) (hs : NoSpace s) :
    trim (front ++ s) = front ++ s := by
  refine trim_eq_self (fun c hc => ?_) fun c hc => ?_
  · rw [List.head?_append_of_ne_nil _ hne] at hc
    exact hhead c hc
  · rw [List.getLast?_append] at hc
    cases h : s.getLast? with
    | none => exact hlast c (by rw [h] at hc; exact hc)
    | some d =>
      rw [h] at hc
      cases hc
      exact hs c (List.mem_of_getLast? h)

/-- A marker without white space is not trimmed away, whatever stands behind it. -/
theorem trim_marker {marker : Text} (hne : marker ≠ []) (hm : NoSpace marker) (value : Text) :
    ∃ rest, trim (marker ++ value) = marker ++ rest := by
  have hstart : (marker ++ value).dropWhile isWhitespace = marker ++ value := by
    cases marker with
    | nil => exact absurd rfl hne
    | cons c cs =>
      have hc : isWhitespace c = false := hm c (List.mem_cons_self ..)
      rw [List.cons_append, List.dropWhile_cons_of_neg (by simp [hc])]
  have hend : marker.reverse.dropWhile isWhitespace = marker.reverse := by
    rw [List.dropWhile_eq_self_iff]
    intro hlt
    exact Bool.eq_false_iff.mp (hm _ (List.mem_reverse.mp (List.getElem_mem hlt)))
  rw [trim, hstart, List.rdropWhile, List.reverse_append, List.dropWhile_append]
  split
  · exact ⟨[], by rw [hend, List.reverse_reverse, List.append_nil]⟩
  · exact ⟨_, by rw [List.reverse_append, List.reverse_reverse]⟩

theorem getLast?_intercalate {words : List Text} (hne : words ≠ [])
    (h : ∀ word ∈ words, Word word) :
    ∀ c ∈ ([' '].intercalate words).getLast?, isWhitespace c = false := by
  induction words with
  | nil => exact absurd rfl hne
  | cons word words ih =>
    cases words with
    | nil =>
      intro c hc
      rw [List.intercalate_singleton] at hc
      exact (h word (List.mem_singleton_self _)).noSpace c (List.mem_of_getLast? hc)
    | cons next words =>
      have ih := ih (List.cons_ne_nil _ _) fun w hm => h w (List.mem_cons_of_mem _ hm)
      intro c hc
      have hnext : [' '].intercalate (next :: words) ≠ [] := by
        intro he
        have hs := splitWhitespace_intercalate fun w hm => h w (List.mem_cons_of_mem _ hm)
        rw [he] at hs
        cases hs
      rw [List.intercalate_cons_cons, List.getLast?_append_of_ne_nil _ hnext] at hc
      exact ih c hc

end Text

end RtcTunnel.Core
