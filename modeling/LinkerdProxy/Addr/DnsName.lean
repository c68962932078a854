import Mathlib
import LinkerdProxy.Addr.NameAddr

namespace LinkerdProxy.Addr

/-!
# The grammar `is_valid_dns_id` accepts

`is_valid_dns_id` is one loop over the bytes with three flags.  Its specification is a grammar:
labels of 1 to 63 bytes over `[A-Za-z0-9_-]`, none starting or ending with a hyphen, joined by
dots, with one optional trailing dot, the last label not all digits, and at most 253 bytes in
all.

* `LabelScan.foldlM_word` — scanning a dot-free word from the start of a label either fails or
  leaves the state that describes the word (its length, whether it is all digits, whether it
  ends with a hyphen);
* `LabelScan.foldlM_labels` — scanning labels joined by dots is scanning each word, with a dot
  accepted exactly after a label of the grammar;
* `is_valid_dns_id_iff` — the scanner accepts exactly the names of the grammar of at most 253
  bytes;
* `try_from_ascii_grammar` — `Name::try_from_ascii` succeeds exactly on the grammar's byte
  strings, keeps them lowercased, and every name parses back to itself.
-/

/-! ### The grammar -/

/-- A character the scanner takes within a label: an ASCII digit or letter, `_` or `-`. -/
def LabelChar (c : Char) : Bool := c.isDigit || c.isAlpha || c = '_' || c = '-'

/-- Whether a word is all digits. -/
def allDigits (w : List Char) : Bool := w.all Char.isDigit

/-- A label of the grammar: 1 to 63 label characters, neither the first nor the last a
    hyphen. -/
def Label (l : List Char) : Prop :=
  l ≠ [] ∧ l.length ≤ MAX_LABEL_LENGTH ∧ (∀ c ∈ l, LabelChar c = true) ∧
    l.head? ≠ some '-' ∧ l.getLast? ≠ some '-'

instance (l : List Char) : Decidable (Label l) :=
  inferInstanceAs (Decidable (_ ∧ _ ∧ _ ∧ _ ∧ _))

/-- The names of the grammar: labels `l₁ … lₙ` (`n ≥ 1`, the last written apart) joined by
    dots, with an optional trailing dot, the last label not all digits. -/
def DnsGrammar (s : List Char) : Prop :=
  ∃ (ls : List (List Char)) (last : List Char), (∀ l ∈ ls ++ [last], Label l) ∧
    allDigits last = false ∧
    (s = ['.'].intercalate (ls ++ [last]) ∨ s = ['.'].intercalate (ls ++ [last]) ++ ['.'])

/-! ### Scanning one word -/

/-- A word the scanner can read from the start of a label: label characters, not starting with
    a hyphen, at most 63 of them. -/
def WordOk (w : List Char) : Prop :=
  (∀ c ∈ w, LabelChar c = true) ∧ w.head? ≠ some '-' ∧ w.length ≤ MAX_LABEL_LENGTH

instance (w : List Char) : Decidable (WordOk w) := inferInstanceAs (Decidable (_ ∧ _ ∧ _))

namespace LabelScan

/-- The scanner's state after the word `w` of the current label, read from the state `s` at the
    label's start. -/
def wordState (s : LabelScan) (w : List Char) : LabelScan :=
  ⟨w.length, if w = [] then s.label_is_all_numeric else allDigits w,
    if w = [] then s.label_ends_with_hyphen else w.getLast? == some '-'⟩

/-- The start of a label: nothing read of it, and no hyphen pending. -/
def AtStart (s : LabelScan) : Prop := s.label_length = 0 ∧ s.label_ends_with_hyphen = false

theorem atStart_init : init.AtStart := ⟨rfl, rfl⟩

@[simp] theorem word_state_nil (s : LabelScan) (hs : s.AtStart) : s.wordState [] = s := by
  obtain ⟨len, num, hyp⟩ := s
  obtain ⟨hl, hh⟩ := hs
  simp only at hl hh
  simp [wordState, hl, hh]

theorem wordOk_concat {w : List Char} {c : Char} :
    WordOk (w ++ [c]) ↔
      WordOk w ∧ LabelChar c = true ∧ (w = [] → c ≠ '-') ∧
        w.length + 1 ≤ MAX_LABEL_LENGTH := by
  unfold WordOk
  cases w with
  | nil => simp
  | cons d w =>
    simp only [List.cons_append, List.forall_mem_cons, List.forall_mem_append,
      List.not_mem_nil, IsEmpty.forall_iff, implies_true, and_true, List.head?_cons,
      List.length_cons, List.length_append, reduceCtorEq, true_and]
    constructor
    · rintro ⟨⟨hd, hw, hc⟩, hh, hlen⟩
      exact ⟨⟨⟨hd, hw⟩, hh, by omega⟩, hc, by omega⟩
    · rintro ⟨⟨⟨hd, hw⟩, hh, _⟩, hc, hlen⟩
      exact ⟨⟨hd, hw, hc⟩, hh, by omega⟩

/-- The scanner's length check, read the other way round. -/
theorem if_max_label_le {α : Type} (n : Nat) (a b : Option α) :
    (if MAX_LABEL_LENGTH ≤ n then a else b) = if n < MAX_LABEL_LENGTH then b else a := by
  by_cases h : n < MAX_LABEL_LENGTH
  · rw [if_pos h, if_neg (Nat.not_le.mpr h)]
  · rw [if_neg h, if_pos (Nat.not_lt.mp h)]

theorem word_state_concat (s : LabelScan) (w : List Char) (c : Char) :
    s.wordState (w ++ [c]) = ⟨w.length + 1, allDigits w && c.isDigit, c == '-'⟩ := by
  simp [wordState, allDigits, List.all_append]

/-- One more character of the current label, a dot apart: the scanner takes it exactly when the
    word stays readable, and then describes the longer word. -/
theorem step_word_state (s : LabelScan) {w : List Char} (hw : WordOk w)
    {c : Char} (hc : c ≠ '.') :
    (s.wordState w).step c =
      if WordOk (w ++ [c]) then some (s.wordState (w ++ [c])) else none := by
  rw [word_state_concat]
  simp only [wordOk_concat, hw, true_and]
  have hlen : (s.wordState w).label_length = w.length := rfl
  unfold step
  rw [hlen]
  by_cases hdash : c = '-'
  · subst hdash
    by_cases hnil : w = []
    · subst hnil
      simp [LabelChar]
    · have hw0 : w.length ≠ 0 := by simpa using hnil
      simp [hw0, hnil, LabelChar, if_max_label_le]
  · have hcdash : (c == '-') = false := by simp [hdash]
    by_cases hdig : c.isDigit = true
    · -- a digit keeps the label all digits exactly when it was so far, or is its first byte
      have hnum : (w.length == 0 || if w = [] then s.label_is_all_numeric else allDigits w) =
          allDigits w := by
        by_cases hnil : w = []
        · simp [hnil, allDigits]
        · simp [hnil]
      simp [hdash, hdig, hcdash, hnum, LabelChar, wordState, if_max_label_le]
    · by_cases halpha : (c.isAlpha || c = '_') = true
      · simp [hdash, hdig, halpha, hcdash, LabelChar, if_max_label_le]
      · simp [hdash, hdig, halpha, hc, LabelChar]

/-- **Scanning a word.**  From the start of a label, a dot-free word is read exactly when it is
    readable, into the state that describes it. -/
theorem foldlM_word {s : LabelScan} (hs : s.AtStart) (w : List Char) (hdot : '.' ∉ w) :
    w.foldlM step s = if WordOk w then some (s.wordState w) else none := by
  induction w using List.reverseRecOn with
  | nil => simp [hs, WordOk]
  | append_singleton w c ih =>
    have hw : '.' ∉ w := fun h => hdot (List.mem_append_left _ h)
    have hc : c ≠ '.' := fun h => hdot (h ▸ List.mem_append_right _ (List.mem_singleton_self c))
    rw [List.foldlM_append, ih hw]
    by_cases hok : WordOk w
    · simp only [if_pos hok, List.foldlM_cons, List.foldlM_nil, Option.bind_eq_bind,
        Option.bind_some, step_word_state s hok hc]
      split <;> rfl
    · have : ¬ WordOk (w ++ [c]) := fun h => hok (wordOk_concat.mp h).1
      simp [hok, this]

/-! ### Scanning labels -/

/-- A label is a readable word that is not empty and does not end with a hyphen. -/
theorem label_iff (l : List Char) :
    Label l ↔ WordOk l ∧ l ≠ [] ∧ l.getLast? ≠ some '-' := by
  unfold Label WordOk
  tauto

/-- The scanner at the start of the label after the dot that ends the label `l`: the dot keeps
    whether `l` was all digits. -/
def afterDot (l : List Char) : LabelScan := ⟨0, allDigits l, false⟩

theorem atStart_after_dot (l : List Char) : (afterDot l).AtStart := ⟨rfl, rfl⟩

/-- The dot arm of the loop. -/
theorem step_dot_eq (s : LabelScan) :
    s.step '.' = if s.label_ends_with_hyphen then none
      else if s.label_length = 0 then none else some { s with label_length := 0 } := by
  simp [step, show ('.' : Char).isDigit = false by decide,
    show ('.' : Char).isAlpha = false by decide]

/-- The dot after a word is taken exactly when the word is a label, and starts the next one. -/
theorem step_word_state_dot {s : LabelScan} (hs : s.AtStart) {w : List Char} (hw : WordOk w) :
    (s.wordState w).step '.' = if Label w then some (afterDot w) else none := by
  rw [step_dot_eq]
  by_cases hnil : w = []
  · subst hnil
    have hnot : ¬ Label [] := fun h => h.1 rfl
    simp [word_state_nil s hs, hs.1, hs.2, hnot]
  · have hw0 : w.length ≠ 0 := by simpa using hnil
    by_cases hlast : w.getLast? = some '-'
    · have hnot : ¬ Label w := fun h => h.2.2.2.2 hlast
      simp [wordState, hnil, hlast, hnot]
    · have hlab : Label w := (label_iff w).2 ⟨hw, hnil, hlast⟩
      simp [wordState, hnil, hlast, hw0, hlab, afterDot]

/-- The scanner's state at the start of the label after the labels `ls`, from the state `s`. -/
def labelsState (s : LabelScan) : List (List Char) → LabelScan
  | [] => s
  | l :: ls => labelsState (afterDot l) ls

theorem atStart_labels_state {s : LabelScan} (hs : s.AtStart) :
    ∀ ls, (labelsState s ls).AtStart
  | [] => hs
  | l :: ls => atStart_labels_state (atStart_after_dot l) ls

theorem labels_state_concat (s : LabelScan) (ls : List (List Char)) (l : List Char) :
    labelsState s (ls ++ [l]) = afterDot l := by
  induction ls generalizing s with
  | nil => rfl
  | cons l' ls ih => exact ih (afterDot l')

/-- **Scanning labels.**  Dot-free words joined by dots are read exactly when every word before
    the last is a label and the last is readable; the scanner then describes the last word. -/
theorem foldlM_labels {s : LabelScan} (hs : s.AtStart) (ls : List (List Char))
    (last : List Char) (hdot : ∀ l ∈ ls ++ [last], '.' ∉ l) :
    (['.'].intercalate (ls ++ [last])).foldlM step s =
      if (∀ l ∈ ls, Label l) ∧ WordOk last then some ((labelsState s ls).wordState last)
      else none := by
  induction ls generalizing s with
  | nil =>
    rw [List.nil_append, List.intercalate_singleton,
      foldlM_word hs last (hdot last (by simp))]
    simp [labelsState]
  | cons w ls ih =>
    -- the first word, its dot, then the rest from the start of the next label
    have hw : '.' ∉ w := hdot w (by simp)
    rw [List.cons_append, List.intercalate_cons_of_ne_nil (by simp), List.foldlM_append,
      List.foldlM_append, foldlM_word hs w hw]
    by_cases hok : WordOk w
    · have hrest := ih (atStart_after_dot w) (fun l hl => hdot l (by simp_all))
      simp only [if_pos hok, Option.bind_eq_bind, Option.bind_some, List.foldlM_cons,
        List.foldlM_nil, step_word_state_dot hs hok]
      by_cases hlab : Label w
      · simp [hlab, hrest, labelsState]
      · simp [hlab]
    · have hlab : ¬ Label w := fun h => hok ((label_iff w).1 h).1
      simp [hok, hlab]

/-- The checks after the loop: the scan ran to the end, and its last label neither ends with a
    hyphen nor is all digits. -/
def accepts : Option LabelScan → Bool
  | none => false
  | some s => !s.label_ends_with_hyphen && !s.label_is_all_numeric

end LabelScan

/-! ### Words joined by dots -/

/-- The pieces of a split at dots hold no dot. -/
theorem dot_not_mem_splitOn (cs : List Char) : ∀ l ∈ cs.splitOn '.', '.' ∉ l := by
  induction cs with
  | nil => simp
  | cons c cs ih =>
    rw [List.splitOn_cons_eq_if_modifyHead]
    obtain ⟨h, t, ht⟩ : ∃ h t, cs.splitOn '.' = h :: t :=
      List.exists_cons_of_ne_nil (List.splitOn_ne_nil '.' cs)
    rw [ht] at ih ⊢
    split
    · intro l hl
      rcases List.mem_cons.1 hl with rfl | hl
      · simp
      · exact ih l hl
    · next hc =>
      intro l hl
      simp only [List.modifyHead_cons, List.mem_cons] at hl
      rcases hl with rfl | hl
      · have hc' : c ≠ '.' := by simpa using hc
        simpa [Ne.symm hc'] using ih h List.mem_cons_self
      · exact ih l (List.mem_cons_of_mem _ hl)

/-- A trailing empty word is a trailing separator. -/
theorem intercalate_append_nil {α : Type} (sep : List α) :
    ∀ {xs : List (List α)}, xs ≠ [] →
      sep.intercalate (xs ++ [[]]) = sep.intercalate xs ++ sep
  | [x], _ => by simp
  | x :: y :: xs, _ => by
    have ih := intercalate_append_nil sep (List.cons_ne_nil y xs)
    rw [List.cons_append] at ih
    rw [List.cons_append, List.cons_append, List.intercalate_cons_cons, ih,
      List.intercalate_cons_cons]
    simp

/-- Joined words are empty only if the last one is. -/
theorem eq_nil_of_intercalate_eq_nil {α : Type} (sep : List α) (last : List α) :
    ∀ (xs : List (List α)), sep.intercalate (xs ++ [last]) = [] → last = []
  | [], h => by simpa using h
  | x :: xs, h => by
    rw [List.cons_append, List.intercalate_cons_of_ne_nil (by simp)] at h
    exact eq_nil_of_intercalate_eq_nil sep last xs (List.append_eq_nil_iff.1 h).2

/-! ### The scanner accepts the grammar -/

open LabelScan in
/-- `is_valid_dns_id` on a non-empty name: the length check, then the loop and its checks. -/
theorem is_valid_dns_id_of_ne_nil {cs : List Char} (h : cs ≠ []) :
    isValidDnsId cs = (decide (utf8Len cs ≤ 253) && accepts (cs.foldlM step init)) := by
  unfold isValidDnsId
  by_cases hlen : utf8Len cs > 253
  · simp [hlen]
  · rw [if_neg hlen]
    cases cs with
    | nil => exact absurd rfl h
    | cons c cs =>
      simp only [Nat.not_lt.mp hlen, decide_true, Bool.true_and]
      cases (c :: cs).foldlM step init <;> rfl

open LabelScan in
/-- The last state of a scan of joined labels is accepted exactly when the last word is a label
    that is not all digits, or is empty after a label that is not all digits. -/
theorem accepts_word_state (ls : List (List Char)) {last : List Char} (hlast : last ≠ [])
    (hw : WordOk last) :
    accepts (some ((labelsState init ls).wordState last)) = true ↔
      Label last ∧ allDigits last = false := by
  simp only [accepts, wordState, hlast, if_false, Bool.and_eq_true, Bool.not_eq_true',
    beq_eq_false_iff_ne, label_iff]
  tauto

open LabelScan in
/-- **The grammar.**  The scanner accepts exactly the names of the grammar of at most 253
    bytes. -/
theorem is_valid_dns_id_iff (cs : List Char) :
    isValidDnsId cs = true ↔ utf8Len cs ≤ 253 ∧ DnsGrammar cs := by
  constructor
  · intro h
    have hne := ne_nil_of_valid h
    refine ⟨utf8_len_le_of_valid h, ?_⟩
    rw [is_valid_dns_id_of_ne_nil hne, Bool.and_eq_true] at h
    -- the name is its pieces between dots, joined again
    obtain ⟨init', last, hls⟩ := (List.eq_nil_or_concat (cs.splitOn '.')).resolve_left
      (List.splitOn_ne_nil '.' cs)
    rw [List.concat_eq_append] at hls
    have hcs : cs = ['.'].intercalate (init' ++ [last]) := by
      rw [← hls, List.intercalate_splitOn]
    have hdot : ∀ l ∈ init' ++ [last], '.' ∉ l := hls ▸ dot_not_mem_splitOn cs
    have hscan := h.2
    rw [hcs, foldlM_labels atStart_init init' last hdot] at hscan
    split at hscan
    · next hok =>
      obtain ⟨hinit, hlast⟩ := hok
      by_cases hnil : last = []
      · -- a trailing dot: the last label is the one before it
        subst hnil
        rw [word_state_nil _ (atStart_labels_state atStart_init init')] at hscan
        rcases List.eq_nil_or_concat init' with rfl | ⟨init, l, rfl⟩
        · exact absurd hcs (by simpa using hne)
        · rw [List.concat_eq_append] at hinit hcs hscan
          rw [labels_state_concat] at hscan
          have hdig : allDigits l = false := by simpa [accepts, afterDot] using hscan
          refine ⟨init, l, fun x hx => hinit x (by simpa using hx), hdig, Or.inr ?_⟩
          rw [hcs, intercalate_append_nil _ (by simp)]
      · obtain ⟨hlab, hdig⟩ := (accepts_word_state init' hnil hlast).1 hscan
        refine ⟨init', last, fun x hx => ?_, hdig, Or.inl hcs⟩
        rcases List.mem_append.1 hx with hx | hx
        · exact hinit x hx
        · rw [List.mem_singleton.1 hx]
          exact hlab
    · cases hscan
  · rintro ⟨hlen, ls, last, hlab, hdig, hcs⟩
    have hlast : Label last := hlab last (by simp)
    have hdot : ∀ l ∈ ls ++ [last], '.' ∉ l := fun l hl hd => by
      have := (hlab l hl).2.2.1 '.' hd
      simp [LabelChar] at this
    have hok : (∀ l ∈ ls, Label l) ∧ WordOk last :=
      ⟨fun l hl => hlab l (by simp [hl]), ((label_iff last).1 hlast).1⟩
    have hne : cs ≠ [] := by
      rintro rfl
      rcases hcs with hcs | hcs
      · exact hlast.1 (eq_nil_of_intercalate_eq_nil _ _ ls hcs.symm)
      · simp at hcs
    rw [is_valid_dns_id_of_ne_nil hne, Bool.and_eq_true, decide_eq_true_iff]
    refine ⟨hlen, ?_⟩
    rcases hcs with rfl | rfl
    · rw [foldlM_labels atStart_init ls last hdot, if_pos hok]
      exact (accepts_word_state ls hlast.1 hok.2).2 ⟨hlast, hdig⟩
    · -- the trailing dot follows the last label, which is not all digits
      rw [List.foldlM_append, foldlM_labels atStart_init ls last hdot, if_pos hok]
      simp only [Option.bind_eq_bind, Option.bind_some, List.foldlM_cons, List.foldlM_nil,
        step_word_state_dot (atStart_labels_state atStart_init ls) hok.2, if_pos hlast]
      simp [accepts, afterDot, hdig]

/-! ### Names from bytes -/

/-- The grammar's characters are ASCII: one byte each in UTF-8. -/
theorem utf8Size_of_labelChar {c : Char} (h : LabelChar c = true) : c.utf8Size = 1 := by
  simp only [LabelChar, Char.isDigit, Char.isAlpha, Char.isUpper, Char.isLower, Bool.or_eq_true,
    Bool.and_eq_true, decide_eq_true_eq] at h
  simp only [Char.utf8Size]
  rcases h with ((h | h | h) | h) | h
  · grind
  · grind
  · grind
  · subst h; rfl
  · subst h; rfl

/-- What holds of every element of the words and of the separator holds of the joined words. -/
theorem forall_mem_intercalate {α : Type} {P : α → Prop} {sep : List α}
    (hsep : ∀ c ∈ sep, P c) : ∀ {ls : List (List α)}, (∀ l ∈ ls, ∀ c ∈ l, P c) →
      ∀ c ∈ sep.intercalate ls, P c
  | [], _ => by simp
  | [l], hls => by simpa using hls l (by simp)
  | l :: l' :: ls, hls => by
    rw [List.intercalate_cons_cons]
    intro c hc
    rcases List.mem_append.1 hc with hc | hc
    · rcases List.mem_append.1 hc with hc | hc
      · exact hls l (by simp) c hc
      · exact hsep c hc
    · exact forall_mem_intercalate hsep (fun x hx => hls x (List.mem_cons_of_mem l hx)) c hc

/-- Every character of a name of the grammar is a label character or a dot. -/
theorem mem_of_dnsGrammar {cs : List Char} (h : DnsGrammar cs) :
    ∀ c ∈ cs, LabelChar c = true ∨ c = '.' := by
  obtain ⟨ls, last, hlab, -, hcs⟩ := h
  have hjoin : ∀ c ∈ ['.'].intercalate (ls ++ [last]), LabelChar c = true ∨ c = '.' :=
    forall_mem_intercalate (fun c hc => Or.inr (List.mem_singleton.1 hc))
      (fun l hl c hc => Or.inl ((hlab l hl).2.2.1 c hc))
  rcases hcs with rfl | rfl
  · exact hjoin
  · intro c hc
    rcases List.mem_append.1 hc with hc | hc
    · exact hjoin c hc
    · exact Or.inr (List.mem_singleton.1 hc)

/-- A name of the grammar has as many bytes as characters. -/
theorem utf8_len_of_dnsGrammar {cs : List Char} (h : DnsGrammar cs) : utf8Len cs = cs.length := by
  have hone : ∀ c ∈ cs, c.utf8Size = 1 := fun c hc =>
    (mem_of_dnsGrammar h c hc).elim utf8Size_of_labelChar (fun e => e ▸ rfl)
  unfold utf8Len
  rw [List.map_congr_left hone]
  simp

/-- `Name::try_from_ascii`: the scanner over the bytes, each read as the character of its code
    (a byte past ASCII is no character the scanner takes); an accepted name is ASCII, so
    `str::from_utf8` takes it, and `NameRef::to_owned` keeps it lowercased. -/
def Name.tryFromAscii (n : List UInt8) : Option Name :=
  Name.fromStr (String.ofList (n.map UInt8.toChar))

theorem from_str_ofList_isSome (cs : List Char) :
    (Name.fromStr (String.ofList cs)).isSome = isValidDnsId cs := by
  unfold Name.fromStr
  split
  · next h =>
    rw [String.toList_ofList] at h
    simp [h]
  · next h =>
    rw [String.toList_ofList] at h
    simp [h]

theorem from_str_ofList_value {cs : List Char} {n : Name}
    (h : Name.fromStr (String.ofList cs) = some n) : n.value.toList = cs.map Char.toLower := by
  unfold Name.fromStr at h
  split at h
  · cases h
    simp [String.toList_map]
  · cases h

/-- **DNS names.**  `Name::try_from_ascii` succeeds on a byte string exactly when it has at most
    253 bytes and is labels of the grammar joined by dots, with an optional trailing dot; the
    name it keeps is the input lowercased; and every name parses back to itself from its text
    (`Name::from_str(n.to_string()) = n`). -/
theorem try_from_ascii_grammar (s : List UInt8) :
    ((Name.tryFromAscii s).isSome = true ↔
      s.length ≤ 253 ∧ DnsGrammar (s.map UInt8.toChar)) ∧
    (∀ n, Name.tryFromAscii s = some n →
      n.value.toList = (s.map UInt8.toChar).map Char.toLower) ∧
    (∀ n : Name, Name.fromStr n.value = some n) := by
  refine ⟨?_, fun n h => from_str_ofList_value h, Name.from_str_value⟩
  rw [Name.tryFromAscii, from_str_ofList_isSome, is_valid_dns_id_iff]
  constructor
  · rintro ⟨hlen, hg⟩
    rw [utf8_len_of_dnsGrammar hg, List.length_map] at hlen
    exact ⟨hlen, hg⟩
  · rintro ⟨hlen, hg⟩
    rw [utf8_len_of_dnsGrammar hg, List.length_map]
    exact ⟨hlen, hg⟩

-- `1.a` is a name, `a.1` is not: only the last label may not be all digits
example : (Name.tryFromAscii [49, 46, 97]).isSome = true := by decide
example : (Name.tryFromAscii [97, 46, 49]).isSome = false := by decide

end LinkerdProxy.Addr
