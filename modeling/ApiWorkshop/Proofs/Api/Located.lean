import Mathlib.Data.List.Basic
import ApiWorkshop.Api.Read

/-!
# Where a structural fault is located

A search for a key path passes headers and ends in the block of the last one: at
its header, or at an assignment before the next header.  Since a name is looked
for in all lines that follow, the last header passed need not belong to the item
of an array of tables that the path leads into, and then the place that is told
does not belong to it either.
-/

namespace ApiWorkshop

namespace Locate

/-! ## Headers and the lines between them -/

theorem mem_headersFrom {header : Header} {line : Nat} {lines : List Text}
    (isHeader : header ∈ headersFrom line lines) :
    line ≤ header.line ∧
      header? (lines.getD (header.line - line) []) = some (header.name, header.isArray) := by
  induction lines generalizing line with
  | nil => simp [headersFrom] at isHeader
  | cons content lines ih =>
      rw [headersFrom] at isHeader
      have ofRest (isHeader : header ∈ headersFrom (line + 1) lines) :
          line ≤ header.line ∧ header? ((content :: lines).getD (header.line - line) []) =
            some (header.name, header.isArray) := by
        obtain ⟨later, found⟩ := ih isHeader
        have isNext : header.line - line = header.line - (line + 1) + 1 := by omega
        rw [isNext, List.getD_cons_succ]
        exact ⟨by omega, found⟩
      split at isHeader
      next name isArray isFirst =>
        rcases List.mem_cons.mp isHeader with rfl | inRest
        · simpa using isFirst
        · exact ofRest inRest
      next => exact ofRest isHeader

theorem pairwise_headersFrom (line : Nat) (lines : List Text) :
    (headersFrom line lines).Pairwise fun first second => first.line < second.line := by
  induction lines generalizing line with
  | nil => exact .nil
  | cons content lines ih =>
      rw [headersFrom]
      split
      · exact List.pairwise_cons.mpr ⟨fun header isHeader => (mem_headersFrom isHeader).1, ih _⟩
      · exact ih _

namespace Index

/-- A header of a text stands on its line. -/
theorem header?_lineAt {text : Text} {header : Header}
    (isHeader : header ∈ (index text).headers) :
    header? ((index text).lineAt header.line) = some (header.name, header.isArray) := by
  simpa [index, lineAt] using (mem_headersFrom isHeader).2

/-- A key that is found in a block is found before the next header. -/
theorem le_and_header?_eq_none_of_keyInLines? {key : Text} {line : Nat} {lines : List Text}
    {position : Position} (isFound : keyInLines? key line lines = some position) :
    line ≤ position.line ∧ ∀ other, line ≤ other → other ≤ position.line →
      header? (lines.getD (other - line) []) = none := by
  induction lines generalizing line with
  | nil => simp [keyInLines?] at isFound
  | cons content lines ih =>
      rw [keyInLines?] at isFound
      split at isFound
      · contradiction
      next noHeader =>
        have isPlain : header? content = none := by simpa using noHeader
        dsimp only at isFound
        split at isFound
        · obtain rfl := Option.some.inj isFound
          refine ⟨Nat.le_refl _, fun other after before => ?_⟩
          have isFirst : other - line = 0 := by dsimp only at before; omega
          rw [isFirst, List.getD_cons_zero, isPlain]
        · obtain ⟨later, plain⟩ := ih isFound
          refine ⟨by omega, fun other after before => ?_⟩
          rcases Nat.eq_or_lt_of_le after with rfl | isLater
          · simpa using isPlain
          · have isNext : other - line = other - (line + 1) + 1 := by omega
            rw [isNext, List.getD_cons_succ]
            exact plain other isLater before

/-- A position is in the block of a header: on its line or after it, and before every
later header. -/
def InBlock (index : Index) (header : Header) (line : Nat) : Prop :=
  header.line ≤ line ∧ ∀ other ∈ index.headers, header.line < other.line → line < other.line

theorem inBlock_self (index : Index) (header : Header) : index.InBlock header header.line :=
  ⟨Nat.le_refl _, fun _ _ => id⟩

theorem inBlock_of_keyInBlock? {text : Text} {header : Header} {key : String}
    {position : Position}
    (isFound : (index text).keyInBlock? key (header.line + 1) = some position) :
    (index text).InBlock header position.line := by
  obtain ⟨later, plain⟩ := le_and_header?_eq_none_of_keyInLines? isFound
  refine ⟨by omega, fun other isHeader isLater => Nat.lt_of_not_le fun isBefore => ?_⟩
  have noHeader := plain other.line isLater isBefore
  have isThere := header?_lineAt isHeader
  rw [lineAt, List.getD_eq_getElem?_getD] at isThere
  rw [List.getD_eq_getElem?_getD, List.getElem?_drop, Nat.add_sub_cancel' isLater, isThere]
    at noHeader
  contradiction

/-! ## The search -/

/-- The dotted name of an entry of a table. -/
def below (name key : String) : String :=
  s!"{name}.{key}"

theorem isEmpty_below (name key : String) : (below name key).isEmpty = false := by
  have notEmpty : toString "." ≠ "" := by decide
  simp [below, notEmpty]

/-- The header that a search passes last on its way along a path, from a table of a
given name on. -/
def lastHeader (index : Index) : String → Header → KeyPath → Header
  | _, header, [] => header
  | name, header, .index position :: path =>
      lastHeader index name ((index.itemHeader? name position).getD header) path
  | name, header, .name key :: path =>
      match index.headerFrom? (below name key) (header.line + 1) with
      | some next => lastHeader index (below name key) next path
      | none =>
          if index.hasHeaderBelow (below name key) then
            lastHeader index (below name key) header path
          else
            header

end Index

namespace Search

/-- Inside an inline value a search stays on its line. -/
theorem follow_inline (index : Index) {line : Nat} (path : KeyPath) (search : Search)
    (isInline : search.inline? = some line)
    (isOn : ∃ position, search.found = some position ∧ position.line = line) :
    ∃ position, follow index path search = some position ∧ position.line = line := by
  induction path generalizing search with
  | nil => exact isOn
  | cons step path ih =>
      simp only [follow, isInline]
      cases step with
      | index position => exact ih _ isInline isOn
      | name key =>
          rw [stepInline]
          split
          · exact ih _ isInline ⟨_, rfl, rfl⟩
          · exact ih _ isInline isOn

/-- A search that has passed a header ends in the block of the last header it passes. -/
theorem follow_inBlock (text : Text) (path : KeyPath) (search : Search) {header : Header}
    (noInline : search.inline? = none) (someName : search.name.isEmpty = false)
    (isNext : search.line = header.line + 1)
    (isOn : ∃ position, search.found = some position ∧
      (index text).InBlock header position.line) :
    ∃ position, follow (index text) path search = some position ∧
      (index text).InBlock ((index text).lastHeader search.name header path) position.line := by
  induction path generalizing search header with
  | nil => exact isOn
  | cons step path ih =>
      have atHeader (next : Header) : ∃ position,
          some ((index text).headerPosition next) = some position ∧
            (index text).InBlock next position.line :=
        ⟨_, rfl, (index text).inBlock_self next⟩
      cases step with
      | index number =>
          simp only [follow, noInline, Index.lastHeader, stepItem]
          cases (index text).itemHeader? search.name number with
          | some next => exact ih _ rfl someName rfl (atHeader next)
          | none => exact ih _ noInline someName isNext isOn
      | name key =>
          have someBelow := Index.isEmpty_below search.name key
          have isBelow : (if search.name.isEmpty = true then key else s!"{search.name}.{key}") =
              Index.below search.name key := by
            rw [someName]
            rfl
          simp only [follow, noInline, Index.lastHeader, stepName?, isBelow, isNext]
          cases (index text).headerFrom? (Index.below search.name key) (header.line + 1) with
          | some next => exact ih _ rfl someBelow rfl (atHeader next)
          | none =>
              dsimp only
              cases (index text).hasHeaderBelow (Index.below search.name key) with
              | true => exact ih _ rfl someBelow rfl isOn
              | false =>
                  cases isFound : (index text).keyInBlock? key (header.line + 1) with
                  | none => exact isOn
                  | some position =>
                      have inBlock := Index.inBlock_of_keyInBlock? isFound
                      obtain ⟨last, isLast, sameLine⟩ := follow_inline (index text) path
                        ⟨search.name, header.line + 1, some position, some position.line⟩
                        rfl ⟨position, rfl, rfl⟩
                      exact ⟨last, isLast, sameLine ▸ inBlock⟩

end Search

/-! ## Items of arrays of tables -/

namespace Index

/-- A line belongs to an item of an array of tables: it is at or after the header of the
item and before that of the next one. -/
def InItem (index : Index) (name : String) (position line : Nat) : Prop :=
  (∀ header, index.itemHeader? name position = some header → header.line ≤ line) ∧
    ∀ next, index.itemHeader? name (position + 1) = some next → line < next.line

theorem mem_of_itemHeader? {index : Index} {name : String} {position : Nat} {header : Header}
    (isHeader : index.itemHeader? name position = some header) :
    header ∈ index.headers ∧ header.isArray = true ∧ header.name = name := by
  have inFiltered := List.mem_of_getElem? isHeader
  simpa [List.mem_filter, and_assoc] using inFiltered

/-- The header of an item belongs to the item. -/
theorem inItem_self {text : Text} {name : String} {position : Nat} {header : Header}
    (isItem : (index text).itemHeader? name position = some header) :
    (index text).InItem name position header.line := by
  refine ⟨fun other isOther => ?_, fun next isNext => ?_⟩
  · rw [isItem] at isOther
    exact Nat.le_of_eq (congrArg Header.line (Option.some.inj isOther).symm)
  · have inOrder := (pairwise_headersFrom 0 (Text.lineContents text)).filter
      fun header => header.isArray && header.name = name
    obtain ⟨isShort, rfl⟩ := List.getElem?_eq_some_iff.mp isItem
    obtain ⟨isNextShort, rfl⟩ := List.getElem?_eq_some_iff.mp isNext
    exact List.pairwise_iff_getElem.mp inOrder position (position + 1) isShort isNextShort
      (Nat.lt_succ_self position)

theorem mem_of_headerFrom? {index : Index} {name : String} {line : Nat} {header : Header}
    (isHeader : index.headerFrom? name line = some header) :
    header ∈ index.headers ∧ header.name = name ∧ line ≤ header.line := by
  have passes := List.find?_some isHeader
  simp only [Bool.and_eq_true, decide_eq_true_eq] at passes
  exact ⟨List.mem_of_find?_eq_some isHeader, passes.2, passes.1⟩

/-- A line in the block of a header belongs to the item that the header belongs to. -/
theorem InBlock.inItem_iff {index : Index} {header : Header} {line : Nat}
    (inBlock : index.InBlock header line) (name : String) (position : Nat) :
    index.InItem name position line ↔ index.InItem name position header.line := by
  have before {other : Header} (isHeader : other ∈ index.headers) :
      other.line ≤ line ↔ other.line ≤ header.line := by
    constructor
    · intro isBefore
      exact Nat.le_of_not_lt fun isLater =>
        absurd (inBlock.2 other isHeader isLater) (Nat.not_lt.mpr isBefore)
    · intro isBefore
      exact Nat.le_trans isBefore inBlock.1
  constructor
  · rintro ⟨after, early⟩
    exact ⟨fun other isItem => (before (mem_of_itemHeader? isItem).1).mp (after other isItem),
      fun next isNext => Nat.lt_of_le_of_lt inBlock.1 (early next isNext)⟩
  · rintro ⟨after, early⟩
    exact ⟨fun other isItem => (before (mem_of_itemHeader? isItem).1).mpr (after other isItem),
      fun next isNext => inBlock.2 next (mem_of_itemHeader? isNext).1 (early next isNext)⟩

/-- Along names a search passes later and later headers. -/
theorem le_lastHeader (index : Index) {path : KeyPath} (areNames : ∀ number, .index number ∉ path)
    (name : String) (header : Header) : header.line ≤ (index.lastHeader name header path).line := by
  induction path generalizing name header with
  | nil => exact Nat.le_refl _
  | cons step path ih =>
      have restNames : ∀ number, .index number ∉ path :=
        fun number member => areNames number (List.mem_cons_of_mem step member)
      cases step with
      | index number => exact absurd (List.mem_cons_self ..) (areNames number)
      | name key =>
          rw [lastHeader]
          split
          next next isFound =>
            have isLater := (mem_of_headerFrom? isFound).2.2
            have later := ih restNames (below name key) next
            omega
          · split
            · exact ih restNames _ _
            · exact Nat.le_refl _

/-- The dotted names of the tables that a path leads through from a table of a given
name on. -/
def tablesOn : String → KeyPath → List String
  | _, [] => []
  | name, .index _ :: path => name :: tablesOn name path
  | name, .name key :: path => below name key :: tablesOn (below name key) path

/-- A path from a table of a given name on does not lead out of an item of an array: no
table on it has a header from the next item on, and if it has positions in it, no table on
it has one in an array before the item. -/
structure StaysIn (index : Index) (array : String) (position : Nat) (name : String)
    (path : KeyPath) : Prop where
  noneLater : ∀ header ∈ index.headers, header.name ∈ tablesOn name path →
    ∀ next, index.itemHeader? array (position + 1) = some next → header.line < next.line
  noneEarlier : (∃ number, .index number ∈ path) →
    ∀ header ∈ index.headers, header.isArray = true → header.name ∈ tablesOn name path →
      ∀ item, index.itemHeader? array position = some item → item.line ≤ header.line

theorem StaysIn.tail {index : Index} {array name next : String} {position : Nat}
    {step : PathStep} {path : KeyPath} (staysIn : StaysIn index array position name (step :: path))
    (onPath : tablesOn name (step :: path) = next :: tablesOn next path) :
    StaysIn index array position next path := by
  have subset : tablesOn next path ⊆ tablesOn name (step :: path) := by
    rw [onPath]
    exact List.subset_cons_self _ _
  refine ⟨fun header isHeader member => staysIn.noneLater header isHeader (subset member),
    fun ⟨number, isIn⟩ header isHeader isArray member => ?_⟩
  exact staysIn.noneEarlier ⟨number, List.mem_cons_of_mem _ isIn⟩ header isHeader isArray
    (subset member)

/-- The last header passed on a path that stays in an item belongs to the item. -/
theorem StaysIn.inItem_lastHeader {index : Index} {array name : String} {position : Nat}
    {path : KeyPath} (staysIn : StaysIn index array position name path) {header : Header}
    (inItem : index.InItem array position header.line) :
    index.InItem array position (index.lastHeader name header path).line := by
  induction path generalizing name header with
  | nil => exact inItem
  | cons step path ih =>
      cases step with
      | index number =>
          rw [lastHeader]
          refine ih (staysIn.tail rfl) ?_
          cases isItem : index.itemHeader? name number with
          | none => exact inItem
          | some found =>
              obtain ⟨isHeader, isArray, rfl⟩ := mem_of_itemHeader? isItem
              exact ⟨staysIn.noneEarlier ⟨number, by simp⟩ found isHeader isArray
                (by simp [tablesOn]), staysIn.noneLater found isHeader (by simp [tablesOn])⟩
      | name key =>
          rw [lastHeader]
          split
          next found isFound =>
            obtain ⟨isHeader, isName, isLater⟩ := mem_of_headerFrom? isFound
            refine ih (staysIn.tail rfl) ⟨fun item isItem => ?_, ?_⟩
            · have before := inItem.1 item isItem
              omega
            · exact staysIn.noneLater found isHeader (by simp [tablesOn, isName])
          next =>
            split
            · exact ih (staysIn.tail rfl) inItem
            · exact inItem

end Index

/-- The search for a path into an item of an array of tables ends in the block of the last
header that it passes after that of the item. -/
theorem exists_place?_inBlock {text : Text} {array : String} (notEmpty : array.isEmpty = false)
    {position : Nat} {header : Header}
    (isItem : (index text).itemHeader? array position = some header) (path : KeyPath) :
    ∃ place, place? text (.name array :: .index position :: path) = some place ∧
      1 ≤ place.line ∧
      (index text).InBlock ((index text).lastHeader array header path) (place.line - 1) := by
  obtain ⟨isHeader, -, isName⟩ := Index.mem_of_itemHeader? isItem
  have someFirst : ∃ first, (index text).headerFrom? array 0 = some first := by
    rw [← Option.isSome_iff_exists, Index.headerFrom?, List.find?_isSome]
    exact ⟨header, isHeader, by simpa using isName⟩
  obtain ⟨first, isFirst⟩ := someFirst
  obtain ⟨last, isLast, inBlock⟩ := Search.follow_inBlock text path
    ⟨array, header.line + 1, some ((index text).headerPosition header), none⟩
    rfl notEmpty rfl ⟨_, rfl, (index text).inBlock_self header⟩
  have isFollowed : Search.follow (index text) (.name array :: .index position :: path) {} =
      some last := by
    simpa [Search.follow, Search.stepName?, Search.stepItem, isFirst, isItem] using isLast
  exact ⟨⟨last.line + 1, last.offset + 1⟩, by simp [place?, isFollowed], by simp, inBlock⟩

end Locate

open Locate

/-- A fault in an endpoint is located in it exactly if the last header that the search for
it passes belongs to that endpoint; a path that stays in the endpoint is enough for that.
A path of names never leads to a line before the endpoint. -/
theorem Definition.located_in_endpoint_iff {file : SourceText} {document : Entry.Table}
    {found : Misplaced} {error : SourceError} {position : Nat} {path : KeyPath}
    {header : Locate.Header} (isDecoded : Toml.decode file.name file.text = .ok document)
    (isFault : Extract.definition file.name document = .error found)
    (isMisread : Definition.read file = .error (.misread error))
    (inEndpoint : found.path = .name "endpoints" :: .index position :: path)
    (isItem : (index file.text).itemHeader? "endpoints" position = some header) :
    ∃ place, error.place = some place ∧ 1 ≤ place.line ∧
      ((index file.text).InItem "endpoints" position (place.line - 1) ↔
        (index file.text).InItem "endpoints" position
          ((index file.text).lastHeader "endpoints" header path).line) ∧
      ((∀ number, .index number ∉ path) → header.line < place.line) ∧
      ((index file.text).StaysIn "endpoints" position "endpoints" path →
        (index file.text).InItem "endpoints" position (place.line - 1)) := by
  have isPlace : error.place = place? file.text found.path := by
    rw [read, isDecoded] at isMisread
    obtain ⟨fault, path⟩ := found
    simp only [Bind.bind, Except.bind, isFault] at isMisread
    split at isMisread
    · simp at isMisread
    · simp at isMisread
    next isOther =>
      obtain rfl := ReadFailure.misread.inj (Except.error.inj isMisread)
      rw [← Except.error.inj isOther]
  obtain ⟨place, isTold, isLine, inBlock⟩ :=
    exists_place?_inBlock (by decide) isItem path
  refine ⟨place, by rw [isPlace, inEndpoint, isTold], isLine, inBlock.inItem_iff _ _,
    fun areNames => ?_, fun staysIn => (inBlock.inItem_iff _ _).mpr ?_⟩
  · have before := Index.le_lastHeader (index file.text) areNames "endpoints" header
    have inLastBlock := inBlock.1
    omega
  · exact staysIn.inItem_lastHeader (Index.inItem_self isItem)

/-- Two endpoints, of which the second one has a number for its query. -/
def numberQueryFile : SourceText where
  name := "a.toml"
  text := Text.ofLines
    ["[[endpoints]]", "path = \"/a\"", "method = \"GET\"", "[endpoints.query]",
      "x = \"string\"", "[[endpoints]]", "path = \"/b\"", "method = \"GET\"", "query = 3"]

/-- What the file with a number for a query says. -/
def numberQueryDocument : Entry.Table :=
  [("endpoints", .array
    [.table [("path", .string "/a"), ("method", .string "GET"),
        ("query", .table [("x", .string "string")])],
      .table [("path", .string "/b"), ("method", .string "GET"), ("query", .int 3)]])]

theorem located_in_endpoint_of_numberQueryFile :
    Toml.decode numberQueryFile.name numberQueryFile.text = .ok numberQueryDocument ∧
      Extract.definition numberQueryFile.name numberQueryDocument =
        .error ⟨.expectedTable "integer", [.name "endpoints", .index 1, .name "query"]⟩ ∧
      Definition.read numberQueryFile = .error (.misread
        ⟨"expected a table, got integer (at endpoints[1].query)", "a.toml", some ⟨9, 1⟩⟩) ∧
      (index numberQueryFile.text).itemHeader? "endpoints" 1 =
        some ⟨5, "endpoints", true⟩ ∧
      (index numberQueryFile.text).InItem "endpoints" 1 8 := by
  have isDecoded : Toml.decode numberQueryFile.name numberQueryFile.text =
      .ok numberQueryDocument := by decide +kernel
  have isFault : Extract.definition numberQueryFile.name numberQueryDocument =
      .error ⟨.expectedTable "integer", [.name "endpoints", .index 1, .name "query"]⟩ := by
    decide +kernel
  have isMisread : Definition.read numberQueryFile = .error (.misread
      ⟨"expected a table, got integer (at endpoints[1].query)", "a.toml", some ⟨9, 1⟩⟩) := by
    decide +kernel
  have isItem : (index numberQueryFile.text).itemHeader? "endpoints" 1 =
      some ⟨5, "endpoints", true⟩ := by decide +kernel
  have noNext : (index numberQueryFile.text).itemHeader? "endpoints" 2 = none := by
    decide +kernel
  have staysIn : (index numberQueryFile.text).StaysIn "endpoints" 1 "endpoints"
      [.name "query"] :=
    ⟨by simp [noNext], by simp⟩
  obtain ⟨place, isPlace, -, -, -, inItem⟩ :=
    Definition.located_in_endpoint_iff isDecoded isFault isMisread rfl isItem
  obtain rfl := Option.some.inj isPlace
  exact ⟨isDecoded, isFault, isMisread, isItem, inItem staysIn⟩

/-- Two endpoints, of which the first one has a number for its query and the second one
has a table. -/
def tableAfterNumberFile : SourceText where
  name := "a.toml"
  text := Text.ofLines
    ["[[endpoints]]", "path = \"/a\"", "method = \"GET\"", "query = 3", "",
      "[[endpoints]]", "path = \"/b\"", "method = \"GET\"", "", "[endpoints.query]",
      "x = \"string\""]

/-- The fault of the first endpoint is located at the table of the second one. -/
theorem located_in_next_of_tableAfterNumberFile :
    Definition.read tableAfterNumberFile = .error (.misread
        ⟨"expected a table, got integer (at endpoints[0].query)", "a.toml", some ⟨10, 1⟩⟩) ∧
      (index tableAfterNumberFile.text).itemHeader? "endpoints" 1 =
        some ⟨5, "endpoints", true⟩ ∧
      ¬ (index tableAfterNumberFile.text).InItem "endpoints" 0 9 := by
  have isNext : (index tableAfterNumberFile.text).itemHeader? "endpoints" 1 =
      some ⟨5, "endpoints", true⟩ := by decide +kernel
  exact ⟨by decide +kernel, isNext, fun inItem => absurd (inItem.2 _ isNext) (by decide)⟩

end ApiWorkshop
