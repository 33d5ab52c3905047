import EdoPlugin.Text

/-!
# Reading an INI file

`configparser.ConfigParser` of Python's standard library, as it reads a file with `strict=False`,
`allow_no_value=True`, `comment_prefixes=("#", ";")`, `inline_comment_prefixes=("#",)`, no
interpolation and names kept as they are: a reader that goes over the lines, one step for each.  A
section may come again, and goes on then; an option that comes again replaces its value.
-/

namespace EdoPlugin.ConfigParser

/-- The options of a section in their order.  A value is a list of lines; `none` is an option that
    was given without one. -/
abbrev Options : Type := List (String × Option (List String))

/-- What reading a file can fail with: two errors of `configparser`, and the `AttributeError` of a
    line that continues an option without a value. -/
inductive ReadError where
  | missingSectionHeader
  | parsing
  | attribute
deriving DecidableEq, Repr

structure Reader where
  sections : List (String × Options)
  /-- the section that is read, once there is one -/
  current : Option String
  /-- the option that the next lines may continue, or the empty name -/
  option : String
  indent : Nat
  /-- some line was none of the forms; the error waits for the end of the file -/
  malformed : Bool
deriving DecidableEq, Repr

def defaultSection : String := "DEFAULT"

def Reader.start : Reader := ⟨[(defaultSection, [])], none, "", 0, false⟩

/-- `entries[key] = value`: a key that is there keeps its place. -/
def put {β : Type} (key : String) (value : β) : List (String × β) → List (String × β)
  | [] => [(key, value)]
  | entry :: rest =>
    if entry.1 = key then (key, value) :: rest else entry :: put key value rest

/-! ## Lines -/

/-- The lines of a file, whichever of `"\n"`, `"\r"` and `"\r\n"` ends them. -/
def fileLines : List Char → List (List Char)
  | [] => []
  | '\n' :: cs => [] :: fileLines cs
  | '\r' :: '\n' :: cs => [] :: fileLines cs
  | '\r' :: cs => [] :: fileLines cs
  | c :: cs =>
    match fileLines cs with
    | [] => [[c]]
    | line :: rest => (c :: line) :: rest

/-- The text before a `#` that starts the line or follows white space, if there is one. -/
def cutInline : Bool → List Char → Option (List Char)
  | _, [] => none
  | afterSpace, c :: cs =>
    if c = '#' ∧ afterSpace = true then some []
    else (cutInline (isPySpace c) cs).map fun before => c :: before

def isFullLineComment (line : List Char) : Bool :=
  match line.dropWhile isPySpace with
  | c :: _ => c == '#' || c == ';'
  | [] => false

/-- The line without its comment and the white space around it, and whether it had a comment. -/
def content (line : List Char) : List Char × Bool :=
  if isFullLineComment line then ([], true)
  else match cutInline true line with
    | some before => (stripChars before, true)
    | none => (stripChars line, false)

/-- `\[(?P<header>.+)\]` at the start of the text: up to its last bracket. -/
def sectionHeader : List Char → Option String
  | '[' :: cs =>
    match cs.reverse.dropWhile (· ≠ ']') with
    | _ :: c :: before => some (String.ofList (c :: before).reverse)
    | _ => none
  | _ => none

def isDelimiter (c : Char) : Bool := c == '=' || c == ':'

/-- An option line: the name before the first delimiter, and the value behind it. -/
def splitOption (text : List Char) : String × Option String :=
  match text.dropWhile fun c => !isDelimiter c with
  | [] => (String.ofList text, none)
  | _ :: rest =>
    (String.ofList (rstripChars (text.takeWhile fun c => !isDelimiter c)),
      some (String.ofList (stripChars rest)))

/-! ## The reader -/

namespace Reader

/-- `cursect[optname]`, for the option that the next lines may continue. -/
def openValue (r : Reader) : Option (Option (List String)) :=
  match r.current with
  | none => none
  | some sect =>
    if r.option = "" then none
    else (r.sections.lookup sect).bind fun options => options.lookup r.option

/-- `cursect[name] = value` -/
def setOption (r : Reader) (name : String) (value : Option (List String)) : Reader :=
  match r.current with
  | none => r
  | some sect =>
    { r with sections := put sect (put name value ((r.sections.lookup sect).getD [])) r.sections }

/-- A section header: the section goes on, or begins. -/
def enter (r : Reader) (sect : String) : Reader :=
  { r with
    sections := if (r.sections.lookup sect).isSome then r.sections else put sect [] r.sections
    current := some sect
    option := "" }

/-- An option line in the current section. -/
def readOption (r : Reader) (text : List Char) : Reader :=
  let named := splitOption text
  { r.setOption named.1 (named.2.map fun value => [value]) with
    option := named.1
    malformed := r.malformed || named.1 == "" }

/-- A line that starts an entry, at its own indentation. -/
def readEntry (r : Reader) (text : List Char) : Except ReadError Reader :=
  match sectionHeader text with
  | some sect => .ok (r.enter sect)
  | none => if r.current.isNone then .error .missingSectionHeader else .ok (r.readOption text)

/-- One line of the file. -/
def readLine (r : Reader) (line : List Char) : Except ReadError Reader :=
  let text := (content line).1
  if text = [] then
    -- an empty line belongs to the value before it, a comment does not
    match r.openValue with
    | some (some lines) =>
      if (content line).2 then .ok r else .ok (r.setOption r.option (some (lines ++ [""])))
    | _ => .ok r
  else
    let indent := (line.takeWhile isPySpace).length
    if r.current.isSome ∧ r.option ≠ "" ∧ r.indent < indent then
      match r.openValue with
      | some (some lines) => .ok (r.setOption r.option (some (lines ++ [String.ofList text])))
      | _ => .error .attribute
    else { r with indent := indent }.readEntry text

end Reader

/-- The lines of a value as one text. -/
def joinLines (lines : List String) : String :=
  String.ofList (rstripChars ("\n".intercalate lines).toList)

/-- `parser.read(file)`: the sections, with the text of each value. -/
def readFile (text : String) : Except ReadError (List (String × List (String × Option String))) := do
  let r ← (fileLines text.toList).foldlM Reader.readLine .start
  if r.malformed then .error .parsing
  else .ok (r.sections.map fun sect =>
    (sect.1, sect.2.map fun entry => (entry.1, entry.2.map joinLines)))

/-- `parser[name].items()`: the options of the section, and the defaults it does not set. -/
def items (sections : List (String × List (String × Option String))) (name : String) :
    Option (List (String × Option String)) :=
  (sections.lookup name).map fun options =>
    options ++ ((sections.lookup defaultSection).getD []).filter fun entry =>
      entry.1 ∉ options.map Prod.fst

/-! ## Rules

What the reader does with the forms a written file is made of. -/

/-- Lines, each with its end. -/
def textOf (lines : List (List Char)) : List Char := lines.flatMap fun line => line ++ ['\n']

def OneLine (line : List Char) : Prop := '\n' ∉ line ∧ '\r' ∉ line

instance (line : List Char) : Decidable (OneLine line) := inferInstanceAs (Decidable (_ ∧ _))

theorem fileLines_line {line cs : List Char} (hline : OneLine line) :
    fileLines (line ++ '\n' :: cs) = line :: fileLines cs := by
  induction line with
  | nil => rw [List.nil_append, fileLines]
  | cons c line ih =>
    obtain ⟨hnewline, hreturn⟩ := hline
    rw [List.mem_cons, not_or] at hnewline hreturn
    have hrest := ih ⟨hnewline.2, hreturn.2⟩
    rw [List.cons_append, fileLines, hrest]
    · exact fun h => hnewline.1 h.symm
    · exact fun _ h => absurd h.symm hreturn.1
    · exact fun h => hreturn.1 h.symm

theorem fileLines_textOf {lines : List (List Char)} (h : ∀ line ∈ lines, OneLine line) :
    fileLines (textOf lines) = lines := by
  induction lines with
  | nil => rfl
  | cons line lines ih =>
    have hline := h line List.mem_cons_self
    have hlines := ih fun l hl => h l (List.mem_cons_of_mem _ hl)
    have htext : textOf (line :: lines) = line ++ '\n' :: textOf lines := by simp [textOf]
    rw [htext, fileLines_line hline, hlines]

theorem cutInline_eq_none {line : List Char} {afterSpace : Bool} (h : '#' ∉ line) :
    cutInline afterSpace line = none := by
  induction line generalizing afterSpace with
  | nil => rfl
  | cons c line ih =>
    rw [List.mem_cons, not_or] at h
    have hc : c ≠ '#' := Ne.symm h.1
    simp [cutInline, hc, ih h.2]

/-- A character of a section's or an option's name. -/
def IsNameChar (c : Char) : Prop := isPySpace c = false ∧ c ∉ ['#', ';', '=', ':', '[', ']']

instance (c : Char) : Decidable (IsNameChar c) := inferInstanceAs (Decidable (_ ∧ _))

/-- A character of a value that is no white space and starts no comment. -/
def IsValueChar (c : Char) : Prop := isPySpace c = false ∧ c ≠ '#'

instance (c : Char) : Decidable (IsValueChar c) := inferInstanceAs (Decidable (_ ∧ _))

/-- A line without comments is all content. -/
theorem content_eq {c : Char} {line : List Char} (hspace : isPySpace c = false) (hc : c ≠ ';')
    (hline : '#' ∉ c :: line) : content (c :: line) = (stripChars (c :: line), false) := by
  have hhash : c ≠ '#' := fun h => hline (h ▸ List.mem_cons_self)
  have hfull : isFullLineComment (c :: line) = false := by
    simp [isFullLineComment, hspace, hhash, hc]
  unfold content
  rw [hfull, cutInline_eq_none hline]
  rfl

namespace Reader

variable {r : Reader}

@[simp] theorem setOption_malformed {name : String} {value : Option (List String)} :
    (r.setOption name value).malformed = r.malformed := by
  unfold setOption
  split <;> rfl

theorem readLine_blank {lines : List String} (h : r.openValue = some (some lines)) :
    r.readLine [] = .ok (r.setOption r.option (some (lines ++ [""]))) := by
  have hcontent : content [] = ([], false) := rfl
  simp [readLine, hcontent, h]

theorem readLine_comment {cs : List Char} : r.readLine ('#' :: cs) = .ok r := by
  have hfull : isFullLineComment ('#' :: cs) = true := by
    simp [isFullLineComment, show isPySpace '#' = false by decide]
  have hcontent : content ('#' :: cs) = ([], true) := by simp [content, hfull]
  simp only [readLine, hcontent, if_true]
  split <;> rfl

/-- A line that is not indented starts an entry. -/
theorem readLine_entry {c : Char} {line : List Char} (hspace : isPySpace c = false) (hc : c ≠ ';')
    (hline : '#' ∉ c :: line) :
    r.readLine (c :: line) = { r with indent := 0 }.readEntry (stripChars (c :: line)) := by
  have hne : stripChars (c :: line) ≠ [] := stripChars_cons_ne_nil hspace
  simp [readLine, content_eq hspace hc hline, hne, hspace]

/-- `[name]` -/
theorem readLine_section {name : List Char} (hname : ∀ c ∈ name, IsNameChar c) (hne : name ≠ []) :
    r.readLine ('[' :: (name ++ [']'])) =
      .ok ({ r with indent := 0 }.enter (String.ofList name)) := by
  have hhash : '#' ∉ '[' :: (name ++ [']']) := by
    intro hmem
    simp only [List.mem_cons, List.mem_append, List.not_mem_nil, or_false] at hmem
    rcases hmem with h | h | h
    · exact absurd h (by decide)
    · exact (hname _ h).2 (by decide)
    · exact absurd h (by decide)
  have hstrip : stripChars ('[' :: (name ++ [']'])) = '[' :: (name ++ [']']) := by
    rw [stripChars_cons (by decide), ← List.cons_append, rstripChars_append (by decide)]
  have hheader : sectionHeader ('[' :: (name ++ [']'])) = some (String.ofList name) := by
    have hreverse : (name ++ [']']).reverse.dropWhile (· ≠ ']') = ']' :: name.reverse := by simp
    unfold sectionHeader
    simp only [hreverse]
    cases hrev : name.reverse with
    | nil => exact absurd (List.reverse_eq_nil_iff.mp hrev) hne
    | cons c before =>
      simp only
      rw [← hrev, List.reverse_reverse]
  rw [readLine_entry (by decide) (by decide) hhash, hstrip]
  simp [readEntry, hheader]

theorem isPySpace_of_isNameChar {name : List Char} (hname : ∀ c ∈ name, IsNameChar c) :
    ∀ c ∈ name, isPySpace c = false := fun c hc => (hname c hc).1

/-- Without the white space around it, an option's line still is its name, the sign and a text that
    strips to the value. -/
theorem stripChars_option {name value : List Char} (hname : ∀ c ∈ name, IsNameChar c)
    (hvalue : ∀ c ∈ value, IsValueChar c) (hne : name ≠ []) :
    ∃ rest, stripChars (name ++ ' ' :: '=' :: ' ' :: value) = name ++ ' ' :: '=' :: rest ∧
      stripChars rest = value := by
  have hvalues : ∀ c ∈ value, isPySpace c = false := fun c hc => (hvalue c hc).1
  rw [stripChars_append (isPySpace_of_isNameChar hname) hne]
  by_cases hempty : value = []
  · -- then the space after the sign goes as well
    refine ⟨[], ?_, hempty.symm⟩
    have hsplit : name ++ ' ' :: '=' :: ' ' :: value = ((name ++ [' ']) ++ ['=']) ++ [' '] := by
      simp [hempty]
    rw [hsplit, rstripChars_append_space (by decide), rstripChars_append (by decide),
      List.append_assoc]
    rfl
  · refine ⟨' ' :: value, ?_, ?_⟩
    · have hsplit : name ++ ' ' :: '=' :: ' ' :: value = (name ++ [' ', '=', ' ']) ++ value := by
        simp
      rw [hsplit, rstripChars_append_of_nonspace hvalues hempty]
    · rw [stripChars_space (by decide), stripChars_of_nonspace hvalues]

theorem splitOption_eq {name rest : List Char} (hname : ∀ c ∈ name, IsNameChar c) :
    splitOption (name ++ ' ' :: '=' :: rest) =
      (String.ofList name, some (String.ofList (stripChars rest))) := by
  have hbefore : ∀ c ∈ name ++ [' '], (!isDelimiter c) = true := by
    intro c hc
    rcases List.mem_append.mp hc with h | h
    · have hmem := (hname c h).2
      simp only [List.mem_cons, not_or] at hmem
      simp [isDelimiter, hmem.2.2.1, hmem.2.2.2.1]
    · rw [List.mem_singleton.mp h]
      rfl
  have hsplit : name ++ ' ' :: '=' :: rest = (name ++ [' ']) ++ '=' :: rest := by simp
  have hdrop : (name ++ ' ' :: '=' :: rest).dropWhile (fun c => !isDelimiter c) = '=' :: rest := by
    rw [hsplit, List.dropWhile_append_of_pos hbefore]
    rfl
  have htake : (name ++ ' ' :: '=' :: rest).takeWhile (fun c => !isDelimiter c) = name ++ [' '] := by
    rw [hsplit, List.takeWhile_append_of_pos hbefore]
    exact List.append_nil _
  have htrim : rstripChars (name ++ [' ']) = name := by
    rw [rstripChars_append_space (by decide),
      rstripChars_of_nonspace (isPySpace_of_isNameChar hname)]
  simp only [splitOption, hdrop, htake, htrim]

/-- `name = value`; the value may be empty. -/
theorem readLine_option {name value : List Char} (hname : ∀ c ∈ name, IsNameChar c)
    (hvalue : ∀ c ∈ value, IsValueChar c) (hne : name ≠ []) (hcurrent : r.current.isSome) :
    r.readLine (name ++ ' ' :: '=' :: ' ' :: value) =
      .ok { { r with indent := 0 }.setOption (String.ofList name) (some [String.ofList value]) with
        option := String.ofList name } := by
  have hhash : '#' ∉ name ++ ' ' :: '=' :: ' ' :: value := by
    intro hmem
    simp only [List.mem_cons, List.mem_append] at hmem
    rcases hmem with h | h | h | h | h
    · exact (hname _ h).2 (by decide)
    · exact absurd h (by decide)
    · exact absurd h (by decide)
    · exact absurd h (by decide)
    · exact (hvalue _ h).2 rfl
  obtain ⟨rest, hstrip, hrest⟩ := stripChars_option hname hvalue hne
  have hsplit : splitOption (name ++ ' ' :: '=' :: rest) =
      (String.ofList name, some (String.ofList (stripChars rest))) := splitOption_eq hname
  have hnonempty : (String.ofList name == "") = false := by
    rw [beq_eq_false_iff_ne]
    intro hempty
    exact hne (String.ofList_injective hempty)
  cases name with
  | nil => exact absurd rfl hne
  | cons c name =>
    have hc := hname c List.mem_cons_self
    have hmem := hc.2
    simp only [List.mem_cons, not_or] at hmem
    rw [List.cons_append] at hstrip hsplit hhash ⊢
    have hheader : sectionHeader (c :: (name ++ ' ' :: '=' :: rest)) = none := by
      unfold sectionHeader
      split
      · rename_i heq
        cases heq
        exact absurd rfl hmem.2.2.2.2.1
      · rfl
    have hcurrent' : r.current.isNone = false := by simpa using hcurrent
    rw [readLine_entry hc.1 hmem.2.1 hhash, hstrip, List.cons_append]
    simp only [readEntry, hheader, hcurrent', readOption, hsplit, hrest, hnonempty,
      Option.map_some, Bool.or_false, Bool.false_eq_true, if_false, setOption_malformed]

end Reader

/-! ## Written forms -/

def sectionLine (name : String) : List Char := '[' :: (name.toList ++ [']'])

def optionLine (name value : String) : List Char := name.toList ++ ' ' :: '=' :: ' ' :: value.toList

def IsName (name : String) : Prop := name ≠ "" ∧ ∀ c ∈ name.toList, IsNameChar c

instance (name : String) : Decidable (IsName name) :=
  have := List.decidableBAll IsNameChar name.toList
  inferInstanceAs (Decidable (_ ∧ _))

def IsValue (value : String) : Prop := ∀ c ∈ value.toList, IsValueChar c

instance (value : String) : Decidable (IsValue value) :=
  List.decidableBAll IsValueChar value.toList

variable {r : Reader} {name value : String}

theorem IsName.toList_ne_nil (h : IsName name) : name.toList ≠ [] :=
  fun hnil => h.1 (String.toList_eq_nil_iff.mp hnil)

theorem readLine_sectionLine (hname : IsName name) :
    r.readLine (sectionLine name) = .ok ({ r with indent := 0 }.enter name) := by
  have hline := Reader.readLine_section (r := r) hname.2 hname.toList_ne_nil
  rwa [String.ofList_toList] at hline

theorem readLine_optionLine (hname : IsName name) (hvalue : IsValue value)
    (hcurrent : r.current.isSome) :
    r.readLine (optionLine name value) =
      .ok { { r with indent := 0 }.setOption name (some [value]) with option := name } := by
  have hline := Reader.readLine_option (r := r) hname.2 hvalue hname.toList_ne_nil hcurrent
  rwa [String.ofList_toList, String.ofList_toList] at hline

end EdoPlugin.ConfigParser
