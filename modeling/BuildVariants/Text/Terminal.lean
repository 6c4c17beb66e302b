import BuildVariants.Text.Scan

/-!
# Control characters

Text that somebody typed may hold characters that a terminal takes for commands.  There are two
ways to make it harmless.

`escapeControls` writes the characters that commands are made of so that they can be read;
`isCommandPart_of_mem_escapeControls` says that none of them is left.

`dropControls` leaves control characters out, and with an escape character the whole sequence that
it opens.  Line breaks, tabs and the like are no commands and stay, even inside a sequence, and so
does what follows them there, up to the next control character.  All that is left is visible
(`isVisible_of_mem_dropControls`), and visible text is left alone (`dropControls_of_isVisible`).
-/

namespace BuildVariants.Text

/-! ## Writing control characters so that they can be read -/

/-- Whether a character is part of terminal commands: bell, backspace, form feed, escape, delete,
and the upper control characters. -/
def isCommandPart (c : Char) : Bool :=
  ['\x07', '\x08', '\x0c', '\x1b', '\x7f'].contains c || (0x80 ≤ c.toNat && c.toNat ≤ 0x9f)

/-- The escape for a control character: its number with two digits. -/
def controlEscape (c : Char) : List Char :=
  if c.toNat < 0x80 then '\\' :: 'x' :: hexText true 2 c.toNat
  else '\\' :: 'u' :: '\x7b' :: hexText true 2 c.toNat ++ ['\x7d']

/-- Writes the parts of terminal commands as escapes. -/
def escapeControls (s : String) : String :=
  String.ofList (s.toList.flatMap fun c => if isCommandPart c then controlEscape c else [c])

theorem isCommandPart_of_mem_hexText {n value : Nat} {c : Char} (h : c ∈ hexText true n value) :
    isCommandPart c = false := by
  induction n generalizing value with
  | zero => simp [hexText] at h
  | succ n ih =>
    rw [hexText, List.mem_append] at h
    rcases h with h | h
    · exact ih h
    · have small : value % 16 < 16 := Nat.mod_lt _ (by decide)
      rw [List.mem_singleton] at h
      subst h
      generalize value % 16 = d at small
      revert d
      decide

/-- None of them is left where they are written as escapes. -/
theorem isCommandPart_of_mem_escapeControls {s : String} {c : Char}
    (h : c ∈ (escapeControls s).toList) : isCommandPart c = false := by
  simp only [escapeControls, String.toList_ofList, List.mem_flatMap] at h
  obtain ⟨d, _, h⟩ := h
  split at h
  · rw [controlEscape] at h
    split at h
    · simp only [List.mem_cons] at h
      rcases h with rfl | rfl | h
      · decide
      · decide
      · exact isCommandPart_of_mem_hexText h
    · simp only [List.cons_append, List.mem_cons, List.mem_append, List.not_mem_nil,
        or_false] at h
      rcases h with rfl | rfl | rfl | h | rfl
      · decide
      · decide
      · decide
      · exact isCommandPart_of_mem_hexText h
      · decide
  · next notPart =>
    rw [List.mem_singleton] at h
    subst h
    simpa using notPart

/-! ## Leaving control sequences out -/

/-- Where a reader of terminal commands is. -/
inductive Mode
  /-- Outside of any command. -/
  | text
  /-- Behind an escape character. -/
  | escape
  /-- In a short command, before its last character. -/
  | short
  /-- In a control sequence, before its last character. -/
  | control
  /-- In a text for the operating system, which a bell ends. -/
  | systemText
  /-- At the head of a device command. -/
  | device
  /-- Among the parameters of a device command. -/
  | deviceParameters
  /-- Between the parameters and the text of a device command. -/
  | deviceMark
  /-- In the text of a device command or of a message. -/
  | deviceText
  deriving DecidableEq, Repr

/-- Whether a control character is white space. -/
def isBlankControl (c : Char) : Bool :=
  ['\t', '\n', '\x0c', '\r'].contains c

/-- Whether a character is shown outside of commands. -/
def isVisible (c : Char) : Bool :=
  isBlankControl c || (0x20 ≤ c.toNat && c.toNat ≠ 0x7f)

/-- Whether a character ends the text of a device command: one whose UTF-8 bytes hold the string
terminator. -/
def endsDeviceText (c : Char) : Bool :=
  (String.utf8EncodeChar c).contains 0x9c

/-- Where a short command or a longer one begins. -/
def Mode.behindEscape (c : Char) : Mode :=
  let n := c.toNat
  if n < 0x20 ∨ 0x7f ≤ n then .escape
  else if n < 0x30 then .short
  else if c = '[' then .control
  else if c = ']' then .systemText
  else if c = 'P' then .device
  else if c = 'X' ∨ c = '^' ∨ c = '_' then .deviceText
  else .text

/-- The way on from the head of a device command or from its parameters; `others` are further
characters that may stand among parameters. -/
def Mode.inDevice (m : Mode) (others : Mode) (c : Char) : Mode :=
  let n := c.toNat
  if n < 0x20 ∨ 0x7f ≤ n then m
  else if n < 0x30 then .deviceMark
  else if n < 0x3c then .deviceParameters
  else if n < 0x40 then others
  else .deviceText

/-- The way on behind a character.  Cancel and substitute end every command, and an escape
character begins a new one. -/
def Mode.next (m : Mode) (c : Char) : Mode :=
  let n := c.toNat
  if n = 0x18 ∨ n = 0x1a then .text
  else if n = 0x1b then .escape
  else match m with
    | text => .text
    | escape => behindEscape c
    | short => if 0x30 ≤ n ∧ n < 0x7f then .text else .short
    | control => if 0x40 ≤ n ∧ n < 0x7f then .text else .control
    | systemText => if n = 0x07 then .text else .systemText
    | device => inDevice .device .deviceParameters c
    | deviceParameters => inDevice .deviceParameters .deviceText c
    | deviceMark => if 0x30 ≤ n ∧ n < 0x7f then .deviceText else .deviceMark
    | deviceText => if endsDeviceText c then .text else .deviceText

/-- Whether a character is shown where the reader is. -/
def Mode.shows : Mode → Char → Bool
  | text, c => isVisible c
  | escape, c | short, c | control, c => isBlankControl c
  | _, _ => false

/-- What is shown of some characters.  Behind one that is shown inside of a sequence all visible
characters are shown (`resumed`), until a control character takes the sequence up again. -/
def shown : Mode → (resumed : Bool) → List Char → List Char
  | _, _, [] => []
  | m, resumed, c :: cs =>
    if resumed && isVisible c then
      c :: shown (if c.toNat < 0x80 then m else .text) true cs
    else if m.shows c then c :: shown (m.next c) true cs
    else shown (m.next c) false cs

/-- Leaves out control characters and the sequences they open. -/
def dropControls (s : String) : String :=
  String.ofList (shown .text false s.toList)

theorem isVisible_of_shows {m : Mode} {c : Char} (h : m.shows c = true) : isVisible c = true := by
  cases m <;> simp_all [Mode.shows, isVisible]

/-- Whatever the reader is in the middle of, it shows visible characters only. -/
theorem isVisible_of_mem_shown {m : Mode} {resumed : Bool} {cs : List Char} {c : Char}
    (h : c ∈ shown m resumed cs) : isVisible c = true := by
  induction cs generalizing m resumed with
  | nil => simp [shown] at h
  | cons d ds ih =>
    rw [shown] at h
    split at h
    · next both =>
      rcases List.mem_cons.1 h with rfl | h
      · exact (Bool.and_eq_true _ _ ▸ both).2
      · exact ih h
    · split at h
      · next shows =>
        rcases List.mem_cons.1 h with rfl | h
        · exact isVisible_of_shows shows
        · exact ih h
      · exact ih h

/-- All that is left is visible. -/
theorem isVisible_of_mem_dropControls {s : String} {c : Char} (h : c ∈ (dropControls s).toList) :
    isVisible c = true := by
  rw [dropControls, String.toList_ofList] at h
  exact isVisible_of_mem_shown h

theorem next_text_of_isVisible {c : Char} (h : isVisible c = true) : Mode.next .text c = .text := by
  have ordinary : c.toNat ≠ 0x1b := by
    intro escape
    have : c = '\x1b' := Char.toNat_inj.1 escape
    subst this
    revert h
    decide
  simp [Mode.next, ordinary]

/-- Visible text opens no command, so the reader stays outside of any. -/
theorem shown_of_isVisible {resumed : Bool} {cs : List Char}
    (h : ∀ c ∈ cs, isVisible c = true) : shown .text resumed cs = cs := by
  induction cs generalizing resumed with
  | nil => rfl
  | cons c cs ih =>
    have visible := h c List.mem_cons_self
    have rest : ∀ r, shown .text r cs = cs :=
      fun _ => ih fun d hd => h d (List.mem_cons_of_mem _ hd)
    rw [shown]
    split
    · simp [rest]
    · simp [Mode.shows, visible, next_text_of_isVisible visible, rest]

/-- Visible text is left alone. -/
theorem dropControls_of_isVisible {s : String} (h : ∀ c ∈ s.toList, isVisible c = true) :
    dropControls s = s := by
  rw [dropControls, shown_of_isVisible h, String.ofList_toList]

end BuildVariants.Text
