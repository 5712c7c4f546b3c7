import ApiWorkshop.Proofs.Api.Located
import ApiWorkshop.Proofs.Text.Parts

/-!
# What stands at a located place

The position found last is kept on the whole way along a path, so it has to be told what
stands there after every kind of step: the header of a table that the path leads through, or
an assignment to a name of the path.
-/

namespace ApiWorkshop

namespace Locate

open Text

/-! ## Lines that are headers -/

/-- The parts of a line that is a table header. -/
structure HeaderLine where
  indent : Text
  isArray : Bool
  inside : Text
  closesTwice : Bool
  gap : Text
  comment : Text
  indent_blank : ∀ c ∈ indent, isBlank c = true
  inside_ne_nil : inside ≠ []
  inside_plain : ∀ c ∈ inside, isBracket c = false
  gap_blank : ∀ c ∈ gap, isBlank c = true
  comment_head : ∀ c ∈ comment.head?, c = '#'

namespace HeaderLine

/-- A bracket, or two of them. -/
def brackets (bracket : Char) (isTwice : Bool) : Text :=
  if isTwice then [bracket, bracket] else [bracket]

def text (line : HeaderLine) : Text :=
  line.indent ++ (brackets '[' line.isArray ++ (line.inside ++
    (brackets ']' line.closesTwice ++ (line.gap ++ line.comment))))

/-- The dotted name of the table. -/
def name (line : HeaderLine) : String :=
  headerName line.inside

theorem indent_text (line : HeaderLine) : Locate.indent line.text = line.indent.length := by
  have ends : ∀ c ∈ (brackets '[' line.isArray ++ (line.inside ++
      (brackets ']' line.closesTwice ++ (line.gap ++ line.comment)))).head?,
      isBlank c = false := by
    rw [brackets]
    split
    all_goals
      intro c isHead
      obtain rfl : '[' = c := Option.some.inj isHead
      decide
  rw [Locate.indent, text, (span_append line.indent_blank ends).1]

theorem length_indent_lt (line : HeaderLine) : line.indent.length < line.text.length := by
  have someInside := List.length_pos_iff.mpr line.inside_ne_nil
  simp only [text, List.length_append]
  omega

end HeaderLine

/-- After a first bracket, a second one of the same kind is dropped if it is there. -/
theorem cons_eq_brackets_append (bracket : Char) (text : Text) :
    bracket :: text = HeaderLine.brackets bracket (text.head? = some bracket) ++
      (if text.head? = some bracket then text.drop 1 else text) := by
  by_cases isTwice : text.head? = some bracket
  · obtain ⟨rest, rfl⟩ := List.head?_eq_some_iff.mp isTwice
    simp [HeaderLine.brackets]
  · simp [HeaderLine.brackets, isTwice]

theorem exists_headerLine {content : Text} {name : String} {isArray : Bool}
    (isHeader : header? content = some (name, isArray)) :
    ∃ line : HeaderLine, line.text = content ∧ line.name = name ∧ line.isArray = isArray := by
  rw [header?] at isHeader
  obtain ⟨afterOpening, isAfterOpening, isHeader⟩ := Option.bind_eq_some_iff.mp isHeader
  obtain ⟨afterClosing, isAfterClosing, isHeader⟩ := Option.bind_eq_some_iff.mp isHeader
  have isOpening := cons_eq_brackets_append '[' afterOpening
  have isClosing := cons_eq_brackets_append ']' afterClosing
  obtain ⟨indent, rest, -, isRest, isContent, areBlank, -⟩ := exists_span isBlank content
  obtain ⟨inside, close, isInside, isClose, isInner, arePlain, -⟩ :=
    exists_span (!isBracket ·)
      (if afterOpening.head? = some '[' then afterOpening.drop 1 else afterOpening)
  obtain ⟨gap, comment, -, isComment, isAfter, areGap, -⟩ :=
    exists_span isBlank
      (if afterClosing.head? = some ']' then afterClosing.drop 1 else afterClosing)
  rw [isInner] at isOpening
  rw [isAfter] at isClosing
  simp only [isInside, isClose, stripStart, isRest, isComment, List.cons_append,
    List.nil_append, after?_eq_some_iff] at isAfterOpening isAfterClosing isHeader
  have isText : indent ++ (HeaderLine.brackets '[' (afterOpening.head? = some '[') ++ (inside ++
      (HeaderLine.brackets ']' (afterClosing.head? = some ']') ++ (gap ++ comment)))) =
        content := by
    rw [← isClosing, ← isAfterClosing, ← isOpening, ← isAfterOpening, ← isContent]
  have isSaid : inside ≠ [] ∧ (∀ c ∈ comment.head?, c = '#') ∧
      headerName inside = name ∧ decide (afterOpening.head? = some '[') = isArray := by
    split at isHeader
    next => cases isHeader
    next someInside =>
      exact ⟨someInside, by simp, Prod.mk.inj (Option.some.inj isHeader)⟩
    next someInside =>
      exact ⟨someInside, by simp, Prod.mk.inj (Option.some.inj isHeader)⟩
    next => cases isHeader
  obtain ⟨someInside, isComment, isName, isTwice⟩ := isSaid
  exact ⟨⟨indent, _, inside, _, gap, comment, areBlank, someInside, by simpa using arePlain,
    areGap, isComment⟩, isText, isName, isTwice⟩

theorem exists_brackets_append (bracket : Char) (isTwice : Bool) {rest : Text}
    (ends : ∀ c ∈ rest.head?, c ≠ bracket) :
    ∃ text, HeaderLine.brackets bracket isTwice ++ rest = bracket :: text ∧
      decide (text.head? = some bracket) = isTwice ∧
      (if text.head? = some bracket then text.drop 1 else text) = rest := by
  cases isTwice with
  | true => exact ⟨bracket :: rest, rfl, by simp, by simp⟩
  | false =>
      have isOther : rest.head? ≠ some bracket := fun isHead => ends bracket isHead rfl
      exact ⟨rest, rfl, by simp [isOther], if_neg isOther⟩

theorem header?_text (line : HeaderLine) :
    header? line.text = some (line.name, line.isArray) := by
  have isMark : ∀ c ∈ line.comment.head?, isBlank c = false ∧ c ≠ ']' := by
    intro c isHead
    rw [line.comment_head c isHead]
    decide
  have afterClose : ∀ c ∈ (line.gap ++ line.comment).head?, c ≠ ']' := by
    refine forall_head?_append (fun c member isClose => ?_) fun c isHead => (isMark c isHead).2
    have isBlank := line.gap_blank c member
    rw [isClose] at isBlank
    exact absurd isBlank (by decide)
  obtain ⟨afterClosing, isClosing, -, isAfterClosing⟩ :=
    exists_brackets_append ']' line.closesTwice afterClose
  have afterOpen : ∀ c ∈ (line.inside ++ ']' :: afterClosing).head?, c ≠ '[' := by
    refine forall_head?_append_of_ne_nil line.inside_ne_nil (fun c member isOpen => ?_) _
    have isPlain := line.inside_plain c member
    rw [isOpen] at isPlain
    exact absurd isPlain (by decide)
  obtain ⟨afterOpening, isOpening, isTwice, isAfterOpening⟩ :=
    exists_brackets_append '[' line.isArray afterOpen
  have inIndent : (line.indent ++ '[' :: afterOpening).dropWhile isBlank =
      '[' :: afterOpening :=
    (span_append line.indent_blank (by simp [show isBlank '[' = false by decide])).2
  have inside : (line.inside ++ ']' :: afterClosing).takeWhile (!isBracket ·) = line.inside ∧
      (line.inside ++ ']' :: afterClosing).dropWhile (!isBracket ·) = ']' :: afterClosing :=
    span_append (by simpa using line.inside_plain) (by simp [isBracket])
  have inGap : (line.gap ++ line.comment).dropWhile isBlank = line.comment :=
    (span_append line.gap_blank fun c isHead => (isMark c isHead).1).2
  rw [HeaderLine.text, isClosing, isOpening, header?, stripStart, inIndent]
  simp only [after?, Option.bind_eq_bind, Option.bind_some, ↓reduceIte, isAfterOpening, inside,
    isAfterClosing, stripStart, inGap, isTwice]
  split
  next isNil => exact absurd isNil line.inside_ne_nil
  next => rfl
  next => rfl
  next noComment noMark =>
    cases isComment : line.comment with
    | nil => exact absurd isComment noComment
    | cons c rest =>
        obtain rfl : c = '#' := line.comment_head c (by simp [isComment])
        exact absurd isComment (noMark rest)

/-- What a line says as a header is what the parts of a header in it say. -/
theorem header?_eq_some_iff {content : Text} {name : String} {isArray : Bool} :
    header? content = some (name, isArray) ↔
      ∃ line : HeaderLine, line.text = content ∧ line.name = name ∧ line.isArray = isArray := by
  refine ⟨exists_headerLine, ?_⟩
  rintro ⟨line, rfl, rfl, rfl⟩
  exact header?_text line

/-! ## Assignments -/

/-- A text begins with a key, bare or between two quotation marks of one kind, and an equals
sign, perhaps with blanks in front of it. -/
def BeginsAssignment (key text : Text) : Prop :=
  ∃ mark ∈ [[], ['"'], ['\x27']], ∃ gap rest, (∀ c ∈ gap, isBlank c = true) ∧
    text = mark ++ key ++ mark ++ gap ++ '=' :: rest

theorem assigns_iff {text : Text} :
    assigns text = true ↔
      ∃ gap rest, (∀ c ∈ gap, isBlank c = true) ∧ text = gap ++ '=' :: rest := by
  rw [assigns, decide_eq_true_eq, stripStart, List.head?_eq_some_iff]
  constructor
  · rintro ⟨rest, isRest⟩
    obtain ⟨gap, after, -, isAfter, isText, areBlank, -⟩ := exists_span isBlank text
    exact ⟨gap, rest, areBlank, by rw [isText, ← isAfter, isRest]⟩
  · rintro ⟨gap, rest, areBlank, rfl⟩
    exact ⟨rest, (span_append areBlank (by simp [show isBlank '=' = false by decide])).2⟩

theorem after?_assigns_iff {key text : Text} :
    (match after? key text with
      | some rest => assigns rest
      | none => false) = true ↔
      ∃ gap rest, (∀ c ∈ gap, isBlank c = true) ∧ text = key ++ gap ++ '=' :: rest := by
  constructor
  · intro isAssigned
    split at isAssigned
    next after isAfter =>
      obtain ⟨gap, rest, areBlank, rfl⟩ := assigns_iff.mp isAssigned
      exact ⟨gap, rest, areBlank, by rw [after?_eq_some_iff.mp isAfter, List.append_assoc]⟩
    · contradiction
  · rintro ⟨gap, rest, areBlank, rfl⟩
    rw [List.append_assoc, after?_append]
    exact assigns_iff.mpr ⟨gap, rest, areBlank, rfl⟩

theorem startsAssignment_iff {key text : Text} :
    startsAssignment key text = true ↔ BeginsAssignment key text := by
  rw [startsAssignment.eq_def, Bool.or_eq_true]
  constructor
  · rintro (isQuoted | isBare)
    · split at isQuoted
      next mark inner =>
        obtain ⟨isMark, isKey⟩ := (Bool.and_eq_true _ _).mp isQuoted
        obtain ⟨gap, rest, areBlank, rfl⟩ := after?_assigns_iff.mp isKey
        exact ⟨[mark], by simpa using isMark, gap, rest, areBlank, by simp⟩
      · contradiction
    · obtain ⟨gap, rest, areBlank, rfl⟩ := after?_assigns_iff.mp isBare
      exact ⟨[], by simp, gap, rest, areBlank, by simp⟩
  · rintro ⟨mark, isMark, gap, rest, areBlank, rfl⟩
    have isOne : mark = [] ∨ ∃ c, (c = '"' ∨ c = '\x27') ∧ mark = [c] := by simpa using isMark
    rcases isOne with rfl | ⟨c, isQuote, rfl⟩
    · exact .inr (after?_assigns_iff.mpr ⟨gap, rest, areBlank, by simp⟩)
    · refine .inl ((Bool.and_eq_true _ _).mpr ⟨by simpa using isQuote, ?_⟩)
      exact after?_assigns_iff.mpr ⟨gap, rest, areBlank, by simp⟩

theorem beginsAssignment_of_findKeyFrom? {key text : Text} {canStart : Bool} {offset found : Nat}
    (isFound : findKeyFrom? key canStart offset text = some found) :
    offset ≤ found ∧ BeginsAssignment key (text.drop (found - offset)) := by
  fun_induction findKeyFrom? key canStart offset text with
  | case1 canStart offset text starts =>
      obtain rfl := Option.some.inj isFound
      rw [Bool.and_eq_true] at starts
      exact ⟨Nat.le_refl _, by simpa using startsAssignment_iff.mp starts.2⟩
  | case2 => contradiction
  | case3 canStart offset c rest noStart ih =>
      obtain ⟨isLater, begins⟩ := ih isFound
      have isNext : found - offset = found - (offset + 1) + 1 := by omega
      exact ⟨by omega, by rwa [isNext, List.drop_succ_cons]⟩

theorem beginsAssignment_of_findKey? {key content : Text} {offset : Nat}
    (isFound : findKey? key content = some offset) :
    BeginsAssignment key (content.drop offset) := by
  simpa using (beginsAssignment_of_findKeyFrom? isFound).2

/-! ## Dotted names -/

/-- The names in a path. -/
def names (path : KeyPath) : List String :=
  path.filterMap fun
    | .name name => some name
    | .index _ => none

/-- Names joined by dots, as in the text of a path. -/
def dotted (names : List String) : String :=
  KeyPath.text (names.map .name)

theorem textAfter_concat (written : String) (path : KeyPath) (name : String) :
    KeyPath.textAfter written (path ++ [.name name]) =
      if (KeyPath.textAfter written path).isEmpty then name
      else s!"{KeyPath.textAfter written path}.{name}" := by
  induction path generalizing written with
  | nil => rfl
  | cons step path ih =>
      cases step with
      | name other => exact ih _
      | index position => exact ih _

theorem dotted_concat (names : List String) (name : String) :
    dotted (names ++ [name]) =
      if (dotted names).isEmpty then name else s!"{dotted names}.{name}" := by
  rw [dotted, List.map_append]
  exact textAfter_concat "" _ name

example : dotted ["schemas", "newUser", "fields"] = "schemas.newUser.fields" := by decide

/-! ## What stands at a position -/

/-- At an offset of a line is the opening bracket of the header of a table that a path leads
through. -/
def ShowsTable (path : KeyPath) (content : Text) (offset : Nat) : Prop :=
  ∃ line : HeaderLine, line.text = content ∧ line.indent.length = offset ∧
    ∃ front, front <+: names path ∧ line.name = dotted front

/-- At an offset of a line is an assignment to a name of a path. -/
def ShowsKey (path : KeyPath) (content : Text) (offset : Nat) : Prop :=
  ∃ key, .name key ∈ path ∧ BeginsAssignment key.toList (content.drop offset)

/-- A position shows a table that a path leads through or a name of the path. -/
def Index.Shows (index : Index) (path : KeyPath) (position : Position) : Prop :=
  ∃ content, index.lines[position.line]? = some content ∧
    (ShowsTable path content position.offset ∨ ShowsKey path content position.offset)

theorem ShowsTable.offset_lt {path : KeyPath} {content : Text} {offset : Nat}
    (shows : ShowsTable path content offset) : offset < content.length := by
  obtain ⟨line, rfl, rfl, -⟩ := shows
  exact line.length_indent_lt

theorem ShowsKey.offset_lt {path : KeyPath} {content : Text} {offset : Nat}
    (showsKey : ShowsKey path content offset) : offset < content.length := by
  obtain ⟨key, -, mark, -, gap, rest, -, isAssignment⟩ := showsKey
  refine Nat.lt_of_not_le fun isLong => ?_
  rw [List.drop_eq_nil_of_le isLong] at isAssignment
  simp at isAssignment

namespace Index

theorem getElem?_lineAt {index : Index} {line : Nat} (someText : index.lineAt line ≠ []) :
    index.lines[line]? = some (index.lineAt line) := by
  rw [lineAt, List.getD_eq_getElem?_getD] at someText ⊢
  cases isAt : index.lines[line]? with
  | some content => rfl
  | none => exact absurd (by rw [isAt]; rfl) someText

/-- The header of a table that a path leads through shows that table. -/
theorem shows_headerPosition {text : Text} {header : Header} {path : KeyPath}
    {front : List String} (isHeader : header ∈ (index text).headers)
    (isName : header.name = dotted front) (onPath : front <+: names path) :
    (index text).Shows path ((index text).headerPosition header) := by
  have isSaid := header?_lineAt isHeader
  obtain ⟨line, isText, sameName, -⟩ := header?_eq_some_iff.mp isSaid
  have someText : (index text).lineAt header.line ≠ [] := by
    rw [← isText]
    exact List.ne_nil_of_length_pos (Nat.zero_lt_of_lt line.length_indent_lt)
  refine ⟨line.text, isText ▸ getElem?_lineAt someText,
    .inl ⟨line, rfl, ?_, front, onPath, sameName.trans isName⟩⟩
  rw [headerPosition, ← isText, line.indent_text]

theorem findKey?_of_keyInLines? {key : Text} {line : Nat} {lines : List Text}
    {position : Position} (isFound : keyInLines? key line lines = some position) :
    ∃ content, lines[position.line - line]? = some content ∧
      findKey? key content = some position.offset := by
  induction lines generalizing line with
  | nil => simp [keyInLines?] at isFound
  | cons content lines ih =>
      rw [keyInLines?] at isFound
      split at isFound
      · contradiction
      · dsimp only at isFound
        split at isFound
        next isKey =>
          obtain rfl := Option.some.inj isFound
          rw [Bool.and_eq_true, decide_eq_true_eq] at isKey
          exact ⟨content, by simp, isKey.2⟩
        next =>
          have isLater := (le_and_header?_eq_none_of_keyInLines? isFound).1
          have isNext : position.line - line = position.line - (line + 1) + 1 := by omega
          rw [isNext, List.getElem?_cons_succ]
          exact ih isFound

/-- A key of a path that is found on a line shows that key. -/
theorem shows_of_findKey? {index : Index} {path : KeyPath} {key : String} {line offset : Nat}
    (isFound : findKey? key.toList (index.lineAt line) = some offset)
    (onPath : .name key ∈ path) : index.Shows path ⟨line, offset⟩ := by
  have showsKey : ShowsKey path (index.lineAt line) offset :=
    ⟨key, onPath, beginsAssignment_of_findKey? isFound⟩
  have someText := List.ne_nil_of_length_pos (Nat.zero_lt_of_lt showsKey.offset_lt)
  exact ⟨_, getElem?_lineAt someText, .inr showsKey⟩

/-- A key of a path that is found in a block shows that key. -/
theorem shows_of_keyInBlock? {text : Text} {key : String} {line : Nat} {position : Position}
    {path : KeyPath} (isFound : (index text).keyInBlock? key line = some position)
    (onPath : .name key ∈ path) : (index text).Shows path position := by
  have isLater := (le_and_header?_eq_none_of_keyInLines? isFound).1
  obtain ⟨content, isLine, isKey⟩ := findKey?_of_keyInLines? isFound
  rw [List.getElem?_drop, Nat.add_sub_cancel' isLater] at isLine
  refine shows_of_findKey? ?_ onPath
  rwa [lineAt, List.getD_eq_getElem?_getD, isLine]

end Index

namespace Search

/-- What a search keeps on its way along a path: outside inline values its name is that of
the table reached, and the position found last shows a table or a name of the path. -/
structure Keeps (index : Index) (path done : KeyPath) (search : Search) : Prop where
  name_eq : search.inline? = none → search.name = dotted (names done)
  shows : ∀ position ∈ search.found, index.Shows path position

variable {text : Text} {path done : KeyPath} {search : Search}

theorem Keeps.stepInline {line : Nat} {step : PathStep}
    (keeps : Keeps (index text) path done search) (isInline : search.inline? = some line)
    (onPath : step ∈ path) :
    Keeps (index text) path (done ++ [step]) (stepInline (index text) line search step) := by
  have staysInline (noneInline : search.inline? = none) :
      search.name = dotted (names (done ++ [step])) := by
    rw [isInline] at noneInline
    contradiction
  cases step with
  | index position => exact ⟨staysInline, keeps.shows⟩
  | name key =>
      rw [Search.stepInline]
      split
      next offset isFound =>
        refine ⟨staysInline, ?_⟩
        rintro _ ⟨⟩
        exact Index.shows_of_findKey? isFound onPath
      next => exact ⟨staysInline, keeps.shows⟩

theorem Keeps.stepItem {position : Nat} (keeps : Keeps (index text) path done search)
    (isOutside : search.inline? = none) (onPath : done ++ [.index position] <+: path) :
    Keeps (index text) path (done ++ [.index position])
      (stepItem (index text) position search) := by
  have isName : search.name = dotted (names (done ++ [.index position])) := by
    simpa [names] using keeps.name_eq isOutside
  rw [Search.stepItem]
  split
  next header isHeader =>
    obtain ⟨isIn, -, sameName⟩ := Index.mem_of_itemHeader? isHeader
    refine ⟨fun _ => isName, ?_⟩
    rintro _ ⟨⟩
    exact Index.shows_headerPosition isIn (sameName.trans isName)
      (onPath.filterMap _)
  next => exact ⟨fun _ => isName, keeps.shows⟩

theorem Keeps.stepName? {name : String} {next : Search}
    (keeps : Keeps (index text) path done search) (isOutside : search.inline? = none)
    (onPath : done ++ [.name name] <+: path)
    (isNext : stepName? (index text) name search = some next) :
    Keeps (index text) path (done ++ [.name name]) next := by
  have isFull : (if search.name.isEmpty then name else s!"{search.name}.{name}") =
      dotted (names (done ++ [.name name])) := by
    rw [keeps.name_eq isOutside, ← dotted_concat]
    simp [names]
  rw [Search.stepName?] at isNext
  simp only [isFull] at isNext
  split at isNext
  next header isHeader =>
    obtain rfl := Option.some.inj isNext
    obtain ⟨isIn, sameName, -⟩ := Index.mem_of_headerFrom? isHeader
    refine ⟨fun _ => rfl, ?_⟩
    rintro _ ⟨⟩
    exact Index.shows_headerPosition isIn sameName (onPath.filterMap _)
  next =>
    split at isNext
    · obtain rfl := Option.some.inj isNext
      exact ⟨fun _ => rfl, keeps.shows⟩
    · split at isNext
      next position isFound =>
        obtain rfl := Option.some.inj isNext
        refine ⟨fun isNone => absurd isNone (by simp), ?_⟩
        rintro _ ⟨⟩
        exact Index.shows_of_keyInBlock? isFound (onPath.subset (by simp))
      · contradiction

theorem Keeps.follow {rest : KeyPath} (keeps : Keeps (index text) path done search)
    (isPath : done ++ rest = path) :
    ∀ position ∈ follow (index text) rest search, (index text).Shows path position := by
  induction rest generalizing done search with
  | nil => exact keeps.shows
  | cons step rest ih =>
      rw [List.append_cons] at isPath
      have onPath : done ++ [step] <+: path := ⟨rest, isPath⟩
      cases inlineAt : search.inline? with
      | some line =>
          simp only [Search.follow, inlineAt]
          exact ih (keeps.stepInline inlineAt (onPath.subset (by simp))) isPath
      | none =>
          cases step with
          | index position =>
              simp only [Search.follow, inlineAt]
              exact ih (keeps.stepItem inlineAt onPath) isPath
          | name name =>
              simp only [Search.follow, inlineAt]
              split
              next next isNext => exact ih (keeps.stepName? inlineAt onPath isNext) isPath
              next => exact keeps.shows

end Search

/-- A place that is told for a path is inside the text, and shows the header of a table that
the path leads through or an assignment to a name of the path. -/
theorem place?_shows {text : Text} {path : KeyPath} {place : Place}
    (isPlace : place? text path = some place) :
    ∃ content, 1 ≤ place.line ∧ (lineContents text)[place.line - 1]? = some content ∧
      1 ≤ place.column ∧ place.column ≤ content.length ∧
      (ShowsTable path content (place.column - 1) ∨
        ShowsKey path content (place.column - 1)) := by
  obtain ⟨position, isFollowed, rfl⟩ := Option.map_eq_some_iff.mp isPlace
  have keeps : Search.Keeps (index text) path [] {} := ⟨fun _ => by decide, by simp⟩
  obtain ⟨content, isLine, shows⟩ := keeps.follow (List.nil_append path) position isFollowed
  have isShort : position.offset < content.length := shows.elim (·.offset_lt) (·.offset_lt)
  exact ⟨content, by simp, by simpa [index] using isLine, by simp, isShort, by simpa using shows⟩

theorem place?_shows_of_numberQueryFile :
    place? numberQueryFile.text [.name "endpoints", .index 1, .name "query"] = some ⟨9, 1⟩ ∧
      ∃ content, (lineContents numberQueryFile.text)[8]? = some content ∧
        (ShowsTable [.name "endpoints", .index 1, .name "query"] content 0 ∨
          ShowsKey [.name "endpoints", .index 1, .name "query"] content 0) := by
  have isPlace : place? numberQueryFile.text [.name "endpoints", .index 1, .name "query"] =
      some ⟨9, 1⟩ := by decide +kernel
  obtain ⟨content, -, isLine, -, -, shows⟩ := place?_shows isPlace
  exact ⟨isPlace, content, isLine, shows⟩

end Locate

end ApiWorkshop
