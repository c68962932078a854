import Mathlib
import LinkerdProxy.Lib.Ascii

namespace LinkerdProxy.Addr

/-!
# DNS names and named addresses (`linkerd_dns_name`, `linkerd_addr`)

A DNS name is checked byte by byte by `is_valid_dns_id`, a scanner over the labels that keeps
the current label's length and whether that label is all digits or ends with a hyphen; an
accepted name is kept lowercased.  A named address `host:port` is split at its last colon, the
port parsed as a `u16` and the host as a name.

* `Name` carries its own validity: lowercasing does not change what the scanner sees
  (`is_valid_dns_id_map_toLower`);
* `is_valid_dns_id_numeric_last_label` — a name whose last label is all digits is refused, so
  no dotted IPv4 address is a name;
* `NameAddr.from_str_of_no_colon` — an address without a colon is refused, whatever it is;
* `NameAddr.from_str_eq_ok` — an address parses exactly when it is a valid name, a colon and a
  `u16`.
-/

/-! ### DNS names -/

/-- The scanner's state in `is_valid_dns_id`. -/
structure LabelScan where
  label_length : Nat
  label_is_all_numeric : Bool
  label_ends_with_hyphen : Bool
  deriving DecidableEq, Repr

def MAX_LABEL_LENGTH : Nat := 63

/-- One byte of the loop of `is_valid_dns_id`; `none` where the loop returns `false`.  A
    character outside ASCII stands for its first UTF-8 byte, which no arm of the loop accepts. -/
def LabelScan.step (s : LabelScan) (c : Char) : Option LabelScan :=
  if c = '-' then
    -- labels must not start with a hyphen
    if s.label_length = 0 then none
    else if s.label_length + 1 > MAX_LABEL_LENGTH then none
    else some ⟨s.label_length + 1, false, true⟩
  else if c.isDigit then
    if s.label_length + 1 > MAX_LABEL_LENGTH then none
    else some ⟨s.label_length + 1, s.label_length == 0 || s.label_is_all_numeric, false⟩
  else if c.isAlpha || c = '_' then
    if s.label_length + 1 > MAX_LABEL_LENGTH then none
    else some ⟨s.label_length + 1, false, false⟩
  else if c = '.' then
    -- labels must not end with a hyphen, nor be empty
    if s.label_ends_with_hyphen then none
    else if s.label_length = 0 then none
    else some { s with label_length := 0 }
  else none

def LabelScan.init : LabelScan := ⟨0, false, false⟩

/-- `str::len`: the length in bytes of UTF-8 text. -/
def utf8Len (cs : List Char) : Nat := (cs.map Char.utf8Size).sum

/-- `is_valid_dns_id`: at most 253 bytes and at least one, every byte accepted by the scanner,
    and a last label that neither ends with a hyphen nor is all digits. -/
def isValidDnsId (hostname : List Char) : Bool :=
  if utf8Len hostname > 253 then false
  else match hostname with
    | [] => false
    | cs => match cs.foldlM LabelScan.step LabelScan.init with
      | none => false
      | some s => !s.label_ends_with_hyphen && !s.label_is_all_numeric

/-- An accepted name has at most 253 bytes. -/
theorem utf8_len_le_of_valid {s : List Char} (h : isValidDnsId s = true) : utf8Len s ≤ 253 := by
  unfold isValidDnsId at h
  split at h
  · cases h
  · omega

/-- An accepted name is not empty. -/
theorem ne_nil_of_valid {s : List Char} (h : isValidDnsId s = true) : s ≠ [] := by
  rintro rfl
  simp [isValidDnsId] at h

/-- A DNS name, lowercased, that the scanner accepts. -/
structure Name where
  value : String
  valid : isValidDnsId value.toList = true
  lower : value.toList.map Char.toLower = value.toList

instance : DecidableEq Name := fun a b =>
  if h : a.value = b.value then isTrue (by cases a; cases b; cases h; rfl)
  else isFalse (fun hab => h (congrArg Name.value hab))

/-! Lowercasing an ASCII letter keeps it a letter of the same byte size, and leaves every other
character alone: the scanner cannot tell a name from its lowercase. -/

theorem utf8Size_toLower (c : Char) : c.toLower.utf8Size = c.utf8Size := by
  unfold Char.toLower
  split
  · simp only [Char.utf8Size]
    grind
  · rfl

theorem char_ne_of_val_ne {c d : Char} (h : c.val ≠ d.val) : c ≠ d := fun e => h (e ▸ rfl)

/-- A character that the scanner reads as a letter. -/
def LetterArm (c : Char) : Prop := c ≠ '-' ∧ c.isDigit = false ∧ c.isAlpha = true

theorem LabelScan.step_of_letterArm (s : LabelScan) {c : Char} (hc : LetterArm c) :
    s.step c = if s.label_length + 1 > MAX_LABEL_LENGTH then none
      else some ⟨s.label_length + 1, false, false⟩ := by
  obtain ⟨hdash, hdigit, halpha⟩ := hc
  simp only [step, hdash, hdigit, halpha, if_false, Bool.true_or, if_true, Bool.false_eq_true]

theorem letterArm_of_upper {c : Char} (hupper : c.val ≥ 'A'.val ∧ c.val ≤ 'Z'.val) : LetterArm c := by
  refine ⟨char_ne_of_val_ne ?_, ?_, ?_⟩
  · grind
  · simp only [Char.isDigit]
    grind
  · simp only [Char.isAlpha, Char.isUpper, Char.isLower]
    grind

theorem letterArm_of_lower {c : Char} (hupper : c.val ≥ 'A'.val ∧ c.val ≤ 'Z'.val) (h) :
    LetterArm ⟨c.val + ('a'.val - 'A'.val), h⟩ := by
  refine ⟨char_ne_of_val_ne ?_, ?_, ?_⟩
  · simp only
    grind
  · simp only [Char.isDigit]
    grind
  · simp only [Char.isAlpha, Char.isLower, Bool.or_eq_true, Bool.and_eq_true, decide_eq_true_eq]
    right
    constructor <;> grind

theorem LabelScan.step_toLower (s : LabelScan) (c : Char) : s.step c.toLower = s.step c := by
  unfold Char.toLower
  split
  · -- an upper-case letter and its lower case both take the letter arm
    rename_i hupper
    rw [s.step_of_letterArm (letterArm_of_upper hupper),
      s.step_of_letterArm (letterArm_of_lower hupper _)]
  · rfl

theorem foldlM_step_map_toLower (cs : List Char) (s : LabelScan) :
    (cs.map Char.toLower).foldlM LabelScan.step s = cs.foldlM LabelScan.step s := by
  induction cs generalizing s with
  | nil => rfl
  | cons c cs ih =>
    simp only [List.map_cons, List.foldlM_cons, LabelScan.step_toLower]
    cases s.step c with
    | none => rfl
    | some s' => exact ih s'

theorem utf8_len_map_toLower (cs : List Char) : utf8Len (cs.map Char.toLower) = utf8Len cs := by
  simp only [utf8Len, List.map_map]
  congr 1
  exact List.map_congr_left fun c _ => utf8Size_toLower c

theorem is_valid_dns_id_map_toLower (cs : List Char) :
    isValidDnsId (cs.map Char.toLower) = isValidDnsId cs := by
  cases cs with
  | nil => rfl
  | cons c cs =>
    have h := foldlM_step_map_toLower (c :: cs) LabelScan.init
    have hl := utf8_len_map_toLower (c :: cs)
    simp only [List.map_cons] at h hl
    simp only [isValidDnsId, List.map_cons, h, hl]

/-- `Name::from_str`: the name lowercased (`NameRef::to_owned`), if the scanner accepts it. -/
def Name.fromStr (n : String) : Option Name :=
  if h : isValidDnsId n.toList then
    some ⟨n.map Char.toLower, by rw [String.toList_map, is_valid_dns_id_map_toLower]; exact h,
      by rw [String.toList_map, List.map_map]; exact List.map_congr_left fun c _ => toLower_toLower c⟩
  else none

/-- A name parses back to itself: it is valid and already lower case. -/
theorem Name.from_str_value (n : Name) : Name.fromStr n.value = some n := by
  unfold Name.fromStr
  rw [dif_pos n.valid]
  obtain ⟨value, valid, lower⟩ := n
  congr 1
  simp only [Name.mk.injEq]
  apply String.toList_inj.mp
  rw [String.toList_map]
  exact lower

/-! ### The last label -/

/-- A dot ends a label: the scanner is at the start of the next one. -/
theorem LabelScan.step_dot {s s' : LabelScan} (h : s.step '.' = some s') : s'.label_length = 0 := by
  unfold step at h
  simp only [show ('.' : Char) ≠ '-' by decide, show ('.' : Char).isDigit = false by decide,
    show ('.' : Char).isAlpha = false by decide, show ('.' : Char) ≠ '_' by decide,
    decide_false, Bool.false_or, if_true, if_false, Bool.false_eq_true] at h
  split at h
  · cases h
  · split at h
    · cases h
    · cases h
      rfl

/-- A digit read at the start of a label, or within an all-digit label, leaves it all digits. -/
theorem LabelScan.step_digit {s s' : LabelScan} {c : Char} (hc : c.isDigit = true)
    (hs : s.label_length = 0 ∨ s.label_is_all_numeric = true) (h : s.step c = some s') :
    s'.label_is_all_numeric = true := by
  have hne : c ≠ '-' := by rintro rfl; simp at hc
  unfold step at h
  simp only [hne, hc, if_false, if_true] at h
  split at h
  · cases h
  · cases h
    rcases hs with hs | hs <;> simp [hs]

/-- The run over the digits of a label ends in an all-digit label. -/
theorem foldlM_digits_numeric {ds : List Char} (hdig : ∀ c ∈ ds, c.isDigit = true) :
    ∀ {s s' : LabelScan}, (s.label_length = 0 ∨ s.label_is_all_numeric = true) → ds ≠ [] →
      ds.foldlM LabelScan.step s = some s' → s'.label_is_all_numeric = true := by
  induction ds with
  | nil => intro s s' _ hne; exact absurd rfl hne
  | cons c cs ih =>
    intro s s' hs _ h
    simp only [List.foldlM_cons] at h
    cases hstep : s.step c with
    | none => simp [hstep] at h
    | some t =>
      simp only [hstep, Option.bind_eq_bind, Option.bind_some] at h
      have ht := LabelScan.step_digit (hdig c List.mem_cons_self) hs hstep
      cases cs with
      | nil => cases h; exact ht
      | cons c' cs' =>
        exact ih (fun x hx => hdig x (List.mem_cons_of_mem c hx)) (Or.inr ht) (List.cons_ne_nil _ _) h

/-- The scanner refuses a name whose last label is all digits: after a dot, or the whole
    name. -/
theorem is_valid_dns_id_numeric_last_label (pre ds : List Char) (hds : ds ≠ [])
    (hdig : ∀ c ∈ ds, c.isDigit = true) (hpre : pre = [] ∨ ∃ p, pre = p ++ ['.']) :
    isValidDnsId (pre ++ ds) = false := by
  -- the scan is at the start of a label when the digits begin
  have hstart : ∀ s, pre.foldlM LabelScan.step LabelScan.init = some s → s.label_length = 0 := by
    rcases hpre with rfl | ⟨p, rfl⟩
    · intro s h
      cases h
      rfl
    · intro s h
      simp only [List.foldlM_append, List.foldlM_cons, List.foldlM_nil] at h
      cases hp : p.foldlM LabelScan.step LabelScan.init with
      | none => simp [hp] at h
      | some t =>
        simp only [hp, Option.bind_eq_bind, Option.bind_some] at h
        cases hdot : t.step '.' with
        | none => simp [hdot] at h
        | some u =>
          simp only [hdot, Option.bind_some] at h
          cases h
          exact LabelScan.step_dot hdot
  have hne : pre ++ ds ≠ [] := by simp [hds]
  unfold isValidDnsId
  split
  · rfl
  · split
    · rename_i heq
      exact absurd heq hne
    · split
      · rfl
      · rename_i s hrun
        simp only [List.foldlM_append] at hrun
        cases hp : pre.foldlM LabelScan.step LabelScan.init with
        | none => simp [hp] at hrun
        | some t =>
          simp only [hp, Option.bind_eq_bind, Option.bind_some] at hrun
          have hnum := foldlM_digits_numeric hdig (Or.inl (hstart t hp)) hds hrun
          simp [hnum]

/-- The IP literal `10.0.0.1`. -/
theorem is_valid_dns_id_numeric_last_label_ip :
    isValidDnsId (['1', '0', '.', '0', '.', '0', '.'] ++ ['1']) = false :=
  is_valid_dns_id_numeric_last_label _ _ (List.cons_ne_nil _ _)
    (fun c hc => by rw [List.mem_singleton.mp hc]; rfl) (.inr ⟨['1', '0', '.', '0', '.', '0'], rfl⟩)

/-! ### Named addresses -/

/-- `addr::Error`. -/
inductive AddrError where
  | invalidHost
  | missingPort
  deriving DecidableEq, Repr

/-- `NameAddr`: a name and a `u16` port. -/
structure NameAddr where
  name : Name
  port : Nat
  deriving DecidableEq

def U16_MAX : Nat := 65535

/-- `hostport.rsplitn(2, ':')`: the text after the last colon, and the text before it if there
    is a colon. -/
def rsplitnColon : List Char → List Char × Option (List Char)
  | [] => ([], none)
  | c :: cs =>
    match rsplitnColon cs with
    | (port, some host) => (port, some (c :: host))
    | (port, none) => if c = ':' then (port, some []) else (c :: port, none)

/-- The digits of `u16::from_str`: `none` at a byte that is not a digit, or once the value passes
    `u16::MAX`. -/
def u16Digits (digits : List Char) : Option Nat :=
  digits.foldlM (fun acc c =>
    let v := acc * 10 + (c.toNat - '0'.toNat)
    if c.isDigit && decide (v ≤ U16_MAX) then some v else none) 0

/-- `u16::from_str`: a non-empty string of digits, with one optional leading `+`. -/
def u16FromStr : List Char → Option Nat
  | [] => none
  | ['+'] => none
  | ['-'] => none
  | '+' :: digits => u16Digits digits
  | digits => u16Digits digits

/-- `NameAddr::from_str_and_port`. -/
def NameAddr.fromStrAndPort (host : String) (port : Nat) : Except AddrError NameAddr :=
  if host.isEmpty then .error .invalidHost
  else match Name.fromStr host with
    | none => .error .invalidHost
    | some name => .ok ⟨name, port⟩

/-- `NameAddr::from_str`: the port after the last colon, then the host before it. -/
def NameAddr.fromStr (hostport : String) : Except AddrError NameAddr :=
  match rsplitnColon hostport.toList with
  | (port, host) =>
    match u16FromStr port with
    | none => .error .missingPort
    | some port =>
      match host with
      | none => .error .invalidHost
      | some host => NameAddr.fromStrAndPort (String.ofList host) port

theorem rsplitn_colon_of_not_mem {cs : List Char} (h : ':' ∉ cs) : rsplitnColon cs = (cs, none) := by
  induction cs with
  | nil => rfl
  | cons c cs ih =>
    have hc : c ≠ ':' := fun hc => h (hc ▸ List.mem_cons_self)
    simp only [rsplitnColon, ih (fun hm => h (List.mem_cons_of_mem c hm)), hc, if_false]

theorem rsplitn_colon_append {port : List Char} (h : ':' ∉ port) (host : List Char) :
    rsplitnColon (host ++ ':' :: port) = (port, some host) := by
  induction host with
  | nil => simp only [List.nil_append, rsplitnColon, rsplitn_colon_of_not_mem h, if_true]
  | cons c host ih => simp only [List.cons_append, rsplitnColon, ih]

/-- The split is at the last colon, and recovers the text. -/
theorem rsplitn_colon_spec (cs : List Char) :
    match rsplitnColon cs with
    | (port, none) => cs = port ∧ ':' ∉ cs
    | (port, some host) => cs = host ++ ':' :: port ∧ ':' ∉ port := by
  induction cs with
  | nil => simp [rsplitnColon]
  | cons c cs ih =>
    simp only [rsplitnColon]
    revert ih
    cases rsplitnColon cs with
    | mk port host =>
      cases host with
      | some host =>
        rintro ⟨rfl, hp⟩
        exact ⟨rfl, hp⟩
      | none =>
        rintro ⟨rfl, hp⟩
        by_cases hc : c = ':'
        · subst hc
          simp [hp]
        · simp [hc, hp, Ne.symm hc]

theorem from_str_and_port_eq_ok {host : String} {port : Nat} {a : NameAddr} :
    NameAddr.fromStrAndPort host port = .ok a ↔ Name.fromStr host = some a.name ∧ port = a.port := by
  unfold NameAddr.fromStrAndPort
  split
  · rename_i hempty
    -- the empty host is not a name either
    rw [String.isEmpty_iff] at hempty
    subst hempty
    simp [Name.fromStr, isValidDnsId]
  · split
    · simp_all
    · rename_i name hname
      cases a
      simp [hname]

/-- **Named addresses.**  An address parses exactly when it is a host, a colon and a port, the
    port a `u16` with no colon in it and the host a valid name. -/
theorem NameAddr.from_str_eq_ok (hostport : String) (a : NameAddr) :
    NameAddr.fromStr hostport = .ok a ↔
      ∃ host port, hostport.toList = host ++ ':' :: port ∧ ':' ∉ port ∧
        u16FromStr port = some a.port ∧ Name.fromStr (String.ofList host) = some a.name := by
  have hspec := rsplitn_colon_spec hostport.toList
  unfold NameAddr.fromStr
  constructor
  · intro h
    revert hspec h
    rcases rsplitnColon hostport.toList with ⟨port, _ | host⟩
    · intro _ h
      simp only at h
      split at h <;> cases h
    · rintro ⟨hsplit, hport⟩ h
      simp only at h
      split at h
      · cases h
      · rename_i p hp
        obtain ⟨hname, rfl⟩ := from_str_and_port_eq_ok.mp h
        exact ⟨host, port, hsplit, hport, hp, hname⟩
  · rintro ⟨host, port, hsplit, hport, hp, hname⟩
    rw [hsplit, rsplitn_colon_append hport]
    simp only [hp]
    exact from_str_and_port_eq_ok.mpr ⟨hname, rfl⟩

/-- An address with no colon is refused: as a missing port, or as an invalid host when it is a
    port on its own. -/
theorem NameAddr.from_str_of_no_colon {hostport : String} (h : ':' ∉ hostport.toList) :
    NameAddr.fromStr hostport =
      .error (if (u16FromStr hostport.toList).isSome then .invalidHost else .missingPort) := by
  unfold NameAddr.fromStr
  rw [rsplitn_colon_of_not_mem h]
  simp only
  cases u16FromStr hostport.toList <;> rfl

/-- A port on its own. -/
theorem NameAddr.from_str_of_no_colon_port :
    NameAddr.fromStr (String.ofList ['8', '0']) =
      .error (if (u16FromStr (String.ofList ['8', '0']).toList).isSome then .invalidHost
        else .missingPort) :=
  NameAddr.from_str_of_no_colon (by simp)

example : NameAddr.fromStr "foo.ns.svc.cluster.local" = .error .missingPort := by decide

example : (NameAddr.fromStr "10.0.0.1:8080").isOk = false := by decide

end LinkerdProxy.Addr
