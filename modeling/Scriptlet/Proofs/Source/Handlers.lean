import Scriptlet.Proofs.Source.Extents
/-!
# Scanning by offsets

A scan may go over a source by byte offsets alone.  It keeps no text: it looks at what follows
its offset, the first pattern that finds something there selects a handler, and the handler
says by itself how many bytes to go on.  An offset that lies outside the text or inside a
character brings such a scan to a halt without any result.

Each handler goes on by the bytes of what its pattern found, so a scan by offsets does what a
cut into lexemes does.
-/

namespace Scriptlet

namespace Text

def upTo? : List Char → Nat → Option (List Char)
  | _, 0 => some []
  | [], _ + 1 => none
  | c :: cs, count + 1 =>
    if c.utf8Size ≤ count + 1 then (upTo? cs (count + 1 - c.utf8Size)).map (c :: ·) else none

/-- The text between two offsets, unless one of them does not point into the text or they
stand the wrong way round. -/
def slice? (cs : List Char) (start stop : Nat) : Option (List Char) :=
  if start ≤ stop then (after? cs start).bind fun rest => upTo? rest (stop - start) else none

@[simp] theorem upTo?_zero (cs : List Char) : upTo? cs 0 = some [] := by
  cases cs <;> rfl

theorem byteSize_eq_zero_iff {cs : List Char} : byteSize cs = 0 ↔ cs = [] := by
  cases cs with
  | nil => simp
  | cons c cs => simp [Nat.ne_of_gt c.utf8Size_pos]

theorem upTo?_byteSize_append (as bs : List Char) :
    upTo? (as ++ bs) (byteSize as) = some as := by
  induction as with
  | nil => simp
  | cons c as ih =>
    have hpos := c.utf8Size_pos
    obtain ⟨n, hn⟩ : ∃ n, c.utf8Size = n + 1 := ⟨c.utf8Size - 1, by omega⟩
    have hsum : byteSize (c :: as) = (n + byteSize as) + 1 := by
      rw [byteSize_cons, hn]
      omega
    rw [hsum, List.cons_append, upTo?, hn, if_pos (by omega),
      show n + byteSize as + 1 - (n + 1) = byteSize as by omega, ih]
    rfl

theorem slice?_append (as bs cs : List Char) :
    slice? (as ++ (bs ++ cs)) (byteSize as) (byteSize as + byteSize bs) = some bs := by
  rw [slice?, if_pos (by omega), after?_byteSize_append, Nat.add_sub_cancel_left]
  exact upTo?_byteSize_append bs cs

end Text

/-- The character behind a place, if there is one, when its offset points into the source. -/
def Source.at? (source : Source) (place : Place) : Option (Option Char) :=
  (source.remainder? place).map fun rest => rest.toList.head?

structure Scan where
  tokens : List Token
  place : Place

inductive Handler where
  | word | numeral | skip | newline | string | unclosed
  | fixed (kind : Kind) (spelling : List Char)
deriving DecidableEq

def handlers : List (Rule × Handler) :=
  [(.word, .word), (.numeral, .numeral), (.blanks, .skip), (.newline, .newline),
   (.string, .string), (.openQuote, .unclosed), (.comment, .skip),
   (.mark .openParen ['('], .fixed .openParen ['(']),
   (.mark .closeParen [')'], .fixed .closeParen [')']),
   (.mark .openCurly ['\x7b'], .fixed .openCurly ['\x7b']),
   (.mark .closeCurly ['\x7d'], .fixed .closeCurly ['\x7d']),
   (.mark .comma [','], .fixed .comma [',']),
   (.mark .dot ['.'], .fixed .dot ['.']),
   (.mark .dash ['-'], .fixed .dash ['-']),
   (.mark .plus ['+'], .fixed .plus ['+']),
   (.mark .semicolon [';'], .fixed .semicolon [';']),
   (.mark .star ['*'], .fixed .star ['*']),
   (.mark .slash ['/'], .fixed .slash ['/']),
   (.mark .notEquals ['!', '='], .fixed .notEquals ['!', '=']),
   (.mark .not ['!'], .fixed .not ['!']),
   (.mark .equals ['=', '='], .fixed .equals ['=', '=']),
   (.mark .assignment ['='], .fixed .assignment ['=']),
   (.mark .lessEquals ['<', '='], .fixed .lessEquals ['<', '=']),
   (.mark .less ['<'], .fixed .less ['<']),
   (.mark .greaterEquals ['>', '='], .fixed .greaterEquals ['>', '=']),
   (.mark .greater ['>'], .fixed .greater ['>'])]

namespace Scan

def start : Scan := ⟨[], Place.start⟩

def skip (scan : Scan) (bytes : Nat) : Scan := { scan with place := scan.place.skip bytes }

def push (scan : Scan) (t : Token) : Scan := { scan with tokens := scan.tokens ++ [t] }

def found? (source : Source) (scan : Scan) (pattern : Rule) : Option (List Char) :=
  (source.remainder? scan.place).map fun rest => (pattern.taken? rest.toList).getD []

def row? (source : Source) (scan : Scan) : Option (Option (Rule × Handler)) :=
  (source.remainder? scan.place).map fun rest =>
    handlers.find? fun row => (row.1.taken? rest.toList).isSome

end Scan

/-- What a handler makes of a scan.  There is no result where some offset does not point into
the text that it is applied to. -/
def Handler.run (source : Source) (pattern : Rule) (scan : Scan) :
    Handler → Option (Except Diagnostic Scan)
  | word => do
    let text ← scan.found? source pattern
    let lexeme := String.ofList text
    let t : Token := ⟨Kind.ofWord lexeme, lexeme, none, scan.place.line⟩
    return .ok ((scan.skip (Text.byteSize text)).push t)
  | numeral => do
    let text ← scan.found? source pattern
    let value := Number.ofText text
    let t : Token := ⟨.number, String.ofList text, some (.number value), scan.place.line⟩
    return .ok ((scan.skip (Text.byteSize text)).push t)
  | skip => do
    let text ← scan.found? source pattern
    return .ok (scan.skip (Text.byteSize text))
  | newline =>
    let next := { scan with place := { scan.place with line := scan.place.line + 1 } }
    some (.ok (next.skip 1))
  | string => do
    let text ← scan.found? source pattern
    let value ← Text.slice? text 1 (Text.byteSize text - 1)
    let line := scan.place.line + Text.newlines value
    let next := { scan with place := { scan.place with line } }
    let t : Token := ⟨.string, String.ofList text, some (.string (String.ofList value)), line⟩
    return .ok ((next.skip (Text.byteSize text)).push t)
  | unclosed => some (.error ⟨.unterminatedString, ⟨scan.place.line, source.file⟩⟩)
  | fixed kind spelling =>
    let t : Token := ⟨kind, String.ofList spelling, none, scan.place.line⟩
    some (.ok ((scan.push t).skip (Text.byteSize spelling)))

def Scan.step (source : Source) (scan : Scan) : Option (Except Diagnostic Scan) := do
  match ← scan.row? source with
  | some (pattern, handler) => handler.run source pattern scan
  | none =>
    let c ← source.at? scan.place
    return .error ⟨.unexpectedCharacter (c.getD '\x00'), ⟨scan.place.line, source.file⟩⟩

/-! ## Which handler a pattern has -/

def Rule.handler : Rule → Handler
  | word => .word
  | numeral => .numeral
  | blanks | comment => .skip
  | newline => .newline
  | string => .string
  | openQuote => .unclosed
  | mark kind spelling => .fixed kind spelling

theorem Rule.eq_string_of_handler {rule : Rule} (h : Handler.string = rule.handler) :
    rule = .string := by
  cases rule <;> first | rfl | cases h

theorem eq_handler_of_mem_handlers : ∀ row ∈ handlers, row.2 = row.1.handler := by decide

theorem table_eq_map_handlers : Rule.table = handlers.map Prod.fst := rfl

/-- The first rule that applies is the pattern of the first row that finds something. -/
theorem find?_of_first? {cs text : List Char} {rule : Rule}
    (h : Rule.first? cs = some (rule, text)) :
    handlers.find? (fun row => (row.1.taken? cs).isSome) = some (rule, rule.handler) := by
  obtain ⟨before, after, htable, htakes, hbefore⟩ := Rule.first?_eq_some_iff.1 h
  rw [table_eq_map_handlers] at htable
  obtain ⟨above, others, hsplit, rfl, hothers⟩ := List.map_eq_append_iff.1 htable
  obtain ⟨⟨_, handler⟩, below, rfl, rfl, rfl⟩ := List.map_eq_cons_iff.1 hothers
  have hmem : (_, handler) ∈ handlers := hsplit ▸ List.mem_append_right above List.mem_cons_self
  rw [← eq_handler_of_mem_handlers _ hmem, List.find?_eq_some_iff_append]
  refine ⟨by simp [Rule.taken?_eq_some_iff.2 htakes], above, below, hsplit, ?_⟩
  intro row hrow
  have hnone : row.1.taken? cs = none := by
    rw [Option.eq_none_iff_forall_ne_some]
    intro t ht
    exact hbefore row.1 (List.mem_map_of_mem hrow) t (Rule.taken?_eq_some_iff.1 ht)
  rw [hnone]
  rfl

theorem find?_of_first?_none {cs : List Char} (h : Rule.first? cs = none) :
    handlers.find? (fun row => (row.1.taken? cs).isSome) = none := by
  rw [List.find?_eq_none]
  intro row hrow hsome
  obtain ⟨t, ht⟩ := Option.isSome_iff_exists.1 hsome
  have hmem : row.1 ∈ Rule.table := table_eq_map_handlers ▸ List.mem_map_of_mem hrow
  exact Rule.not_takes_of_first? hmem h (Rule.taken?_eq_some_iff.1 ht)

/-! ## What handlers do -/

theorem Rule.Takes.newlines_eq_zero {rule : Rule} {text rest : List Char}
    (h : rule.Takes (text ++ rest) text) (hmem : rule ∈ Rule.table)
    (hrule : rule ∉ [.newline, .string]) : Text.newlines text = 0 := by
  rw [Text.newlines, List.count_eq_zero]
  cases rule with
  | newline | string => exact absurd (by decide) hrule
  | blanks => exact fun hnewline => absurd (h.of_blanks _ hnewline) (by decide)
  | comment =>
    obtain ⟨body, rfl, hbody, _⟩ := h.of_comment
    simpa using hbody
  | word | numeral | openQuote | mark =>
    exact fun hnewline => (h.inline hmem (by simp) _ hnewline).1 rfl

def Scan.after (scan : Scan) (lexeme : Lexeme) : Scan :=
  ⟨scan.tokens ++ lexeme.token?.toList, lexeme.stop⟩

/-- A scan of which some text stands before its place, and some behind. -/
structure Scan.Stands (source : Source) (scan : Scan) (before rest : List Char) : Prop where
  text : source.text.toList = before ++ rest
  place : scan.place = Place.start.past before

namespace Scan.Stands

variable {source : Source} {scan : Scan} {before rest text : List Char} {rule : Rule}

theorem offset_eq (h : scan.Stands source before rest) :
    scan.place.offset = Text.byteSize before := by
  rw [h.place, Place.past, Place.start, Nat.zero_add]

theorem remainder_eq (h : scan.Stands source before rest) :
    source.remainder? scan.place = some (String.ofList rest) := by
  rw [Source.remainder?, h.text, h.offset_eq, Text.after?_byteSize_append]
  rfl

theorem at_eq (h : scan.Stands source before rest) :
    source.at? scan.place = some rest.head? := by
  rw [Source.at?, h.remainder_eq, Option.map_some, String.toList_ofList]

theorem atEnd_iff (h : scan.Stands source before rest) :
    source.atEnd scan.place = true ↔ rest = [] := by
  rw [Source.atEnd, decide_eq_true_iff, h.text, h.offset_eq, Text.byteSize_append,
    ← Text.byteSize_eq_zero_iff]
  omega

theorem found_eq (h : scan.Stands source before (text ++ rest))
    (htakes : rule.Takes (text ++ rest) text) : scan.found? source rule = some text := by
  rw [Scan.found?, h.remainder_eq, Option.map_some, String.toList_ofList,
    Rule.taken?_eq_some_iff.2 htakes, Option.getD_some]

theorem row_eq (h : scan.Stands source before rest) :
    scan.row? source = some (handlers.find? fun row => (row.1.taken? rest).isSome) := by
  rw [Scan.row?, h.remainder_eq, Option.map_some, String.toList_ofList]

theorem start (source : Source) : Scan.start.Stands source [] source.text.toList := ⟨rfl, rfl⟩

theorem after (h : scan.Stands source before (text ++ rest)) (rule : Rule) :
    (scan.after ⟨rule, text, scan.place⟩).Stands source (before ++ text) rest := by
  refine ⟨by rw [h.text, List.append_assoc], ?_⟩
  rw [Place.past_append, ← h.place]
  rfl

end Scan.Stands

theorem Place.past_eq_skip {text : List Char} (place : Place) (h : Text.newlines text = 0) :
    place.past text = place.skip (Text.byteSize text) := by
  rw [past, h]
  rfl

/-- The text of a string without its quotes lies between two offsets of it. -/
theorem Text.slice?_quoted (body : List Char) :
    slice? ('"' :: (body ++ ['"'])) 1 (byteSize ('"' :: (body ++ ['"'])) - 1) = some body := by
  have hstop : byteSize ('"' :: (body ++ ['"'])) - 1 = byteSize ['"'] + byteSize body := by
    rw [← List.cons_append, byteSize_append]
    exact Nat.add_sub_cancel (byteSize ('"' :: body)) 1
  rw [hstop]
  exact slice?_append ['"'] body ['"']

/-- A handler goes on by what its pattern found, and makes a token of it. -/
theorem Rule.run_handler {source : Source} {scan : Scan} {rule : Rule}
    {before text rest : List Char} (hstands : scan.Stands source before (text ++ rest))
    (hmem : rule ∈ table) (htakes : rule.Takes (text ++ rest) text) (hquote : rule ≠ .openQuote) :
    rule.handler.run source rule scan = some (.ok (scan.after ⟨rule, text, scan.place⟩)) := by
  have hfound := hstands.found_eq htakes
  have hplace : rule ∉ [.newline, .string] →
      scan.place.past text = scan.place.skip (Text.byteSize text) := fun hrule =>
    scan.place.past_eq_skip (htakes.newlines_eq_zero hmem hrule)
  cases rule with
  | openQuote => exact absurd rfl hquote
  | newline =>
    cases htakes.eq_newline
    rw [handler, Handler.run, Scan.after, Lexeme.token?, Option.toList_none, List.append_nil]
    rfl
  | string =>
    obtain ⟨body, rfl, -⟩ := htakes.of_string
    have hlines : Text.newlines ('"' :: (body ++ ['"'])) = Text.newlines body := by
      simp [Text.newlines]
    have hbody : ('"' :: (body ++ ['"'])).tail.dropLast = body := List.dropLast_concat
    rw [Scan.after, Lexeme.token?, Lexeme.stop, Place.past, hlines, hbody, handler, Handler.run,
      hfound]
    simp only [Option.bind_eq_bind, Option.bind_some, Text.slice?_quoted]
    rfl
  | mark kind spelling =>
    cases htakes.eq_spelling
    rw [Scan.after, Lexeme.token?, Lexeme.stop, hplace (by simp)]
    rfl
  | word | numeral =>
    rw [Scan.after, Lexeme.token?, Lexeme.stop, hplace (by simp), handler, Handler.run, hfound]
    rfl
  | blanks | comment =>
    rw [Scan.after, Lexeme.token?, Lexeme.stop, hplace (by simp), handler, Handler.run, hfound,
      Option.toList_none, List.append_nil]
    rfl

end Scriptlet
