import ApiWorkshop.Proofs.OpenApi.Annotated
import ApiWorkshop.Proofs.Project.ListedLines
import ApiWorkshop.Proofs.Text.CaseWords

/-!
# Which operations share an identifier

The identifier of an operation tells its method and the words of its path in lower case,
where a placeholder begins with the word `by`, and nothing else.  So two endpoints get the
same identifier, in the document and in the table of routes alike, exactly if they agree
in these; that paths differ otherwise is not enough.
-/

namespace ApiWorkshop

namespace OpenApi

/-- The words of a segment in an identifier.  A placeholder without any word in its name
still has an empty one after `by`. -/
def segmentWords (segment : Text) : List Text :=
  match placeholderName? segment with
  | some name => "by" :: (if Text.lowerWords name = [] then [[]] else Text.lowerWords name)
  | none => Text.lowerWords segment

/-- The words of a path in an identifier. -/
def pathWords (path : String) : List Text :=
  (Text.pieces '/' path.toList).flatMap segmentWords

/-! ## From words to identifiers -/

theorem intercalate_append {separator : Text} {first second : List Text} (someFirst : first ≠ [])
    (someSecond : second ≠ []) :
    List.intercalate separator (first ++ second) =
      List.intercalate separator first ++ separator ++ List.intercalate separator second := by
  induction first with
  | nil => exact absurd rfl someFirst
  | cons word first ih =>
      by_cases isLast : first = []
      · rw [isLast, List.singleton_append, Text.intercalate_cons_of_ne_nil someSecond,
          List.intercalate_singleton]
      · have someRest : first ++ second ≠ [] := List.append_ne_nil_of_left_ne_nil isLast second
        rw [List.cons_append, Text.intercalate_cons_of_ne_nil someRest, ih isLast,
          Text.intercalate_cons_of_ne_nil isLast]
        simp only [List.append_assoc]

/-- Joining groups of words and then what they give joins all words; groups without words
are left out. -/
theorem intercalate_filterMap (separator : Text) (word : Text) (groups : List (List Text)) :
    List.intercalate separator (word :: groups.filterMap fun group =>
        if group = [] then none else some (List.intercalate separator group)) =
      List.intercalate separator (word :: groups.flatten) := by
  induction groups generalizing word with
  | nil => rfl
  | cons group groups ih =>
      by_cases noWord : group = []
      · rw [List.filterMap_cons, if_pos noWord, ih, List.flatten_cons, noWord, List.nil_append]
      · have grouped : List.intercalate separator
            (List.intercalate separator group :: groups.flatten) =
              List.intercalate separator (group ++ groups.flatten) := by
          by_cases isLast : groups.flatten = []
          · rw [isLast, List.intercalate_singleton, List.append_nil]
          · rw [Text.intercalate_cons_of_ne_nil isLast, intercalate_append noWord isLast]
        have someRest : group ++ groups.flatten ≠ [] := List.append_ne_nil_of_left_ne_nil noWord _
        rw [List.filterMap_cons, if_neg noWord,
          Text.intercalate_cons_of_ne_nil (List.cons_ne_nil _ _), ih, grouped,
          List.flatten_cons, Text.intercalate_cons_of_ne_nil someRest]

theorem segmentWord?_eq (segment : Text) :
    segmentWord? segment =
      if segmentWords segment = [] then none
      else some (List.intercalate ['_'] (segmentWords segment)) := by
  rw [segmentWord?, segmentWords]
  cases segment with
  | nil => rfl
  | cons c segment =>
      rw [if_neg (by simp)]
      cases isPlaceholder : placeholderName? (c :: segment) with
      | some name =>
          dsimp only
          rw [if_neg (List.cons_ne_nil _ _), Text.underscored_eq_snakeCase, Text.snakeCase_eq]
          split
          next noWord =>
            rw [noWord]
            rfl
          next someWord => rw [Text.intercalate_cons_of_ne_nil someWord]; rfl
      | none =>
          dsimp only
          rw [Text.underscored_eq_snakeCase, Text.snakeCase_eq]
          cases areWords : Text.lowerWords (c :: segment) with
          | nil => rfl
          | cons word words =>
              have isWord := Text.isLower_or_isDigit_of_mem_lowerWords
                (areWords ▸ List.mem_cons_self : word ∈ Text.lowerWords (c :: segment))
              have someChar := Text.intercalate_ne_nil isWord.1 ['_'] words
              rw [if_neg (by simpa using someChar), if_neg (List.cons_ne_nil _ _)]

/-- An identifier is the key of the method and the words of the path, joined by
underscores. -/
theorem operationIdOf_eq (method : Method) (path : String) :
    operationIdOf method path =
      String.ofList (List.intercalate ['_'] (method.key.toList :: pathWords path)) := by
  rw [operationIdOf, pathWords, List.flatMap_def, ← intercalate_filterMap, List.filterMap_map]
  simp only [segmentWord?_eq, Function.comp_def]

/-- Every character of a word in an identifier is a lower-case letter or a digit. -/
theorem isLower_or_isDigit_of_mem_pathWords {path : String} :
    ∀ word ∈ pathWords path, ∀ c ∈ word, (c.isLower || c.isDigit) = true := by
  have ofName (name : Text) : ∀ word ∈ Text.lowerWords name, ∀ c ∈ word,
      (c.isLower || c.isDigit) = true :=
    fun word member => (Text.isLower_or_isDigit_of_mem_lowerWords member).2
  intro word member
  obtain ⟨segment, -, isWord⟩ := List.mem_flatMap.mp member
  rw [segmentWords] at isWord
  split at isWord
  next name _ =>
    rcases List.mem_cons.mp isWord with rfl | inName
    · exact List.all_eq_true.mp (by decide)
    · split at inName
      · simp [List.mem_singleton.mp inName]
      · exact ofName name word inName
  next => exact ofName segment word isWord

theorem operationIdOf_eq_iff {first second : Method} {path other : String} :
    operationIdOf first path = operationIdOf second other ↔
      first = second ∧ pathWords path = pathWords other := by
  have keyApart (method : Method) : '_' ∉ method.key.toList := by cases method <;> decide
  have wordApart (path : String) : ∀ word ∈ pathWords path, '_' ∉ word := by
    intro word isWord isPart
    exact absurd (isLower_or_isDigit_of_mem_pathWords word isWord '_' isPart) (by decide)
  have readBack (method : Method) (path : String) :
      Text.pieces '_' (operationIdOf method path).toList = method.key.toList :: pathWords path := by
    rw [operationIdOf_eq, String.toList_ofList]
    exact Text.pieces_intercalate (List.cons_ne_nil _ _)
      (List.forall_mem_cons.mpr ⟨keyApart method, wordApart path⟩)
  constructor
  · intro same
    have sameWords := congrArg (fun id : String => Text.pieces '_' id.toList) same
    simp only [readBack, List.cons.injEq, String.toList_inj] at sameWords
    exact ⟨key_injective sameWords.1, sameWords.2⟩
  · rintro ⟨rfl, sameWords⟩
    rw [operationIdOf_eq, operationIdOf_eq, sameWords]

/-- An identifier has only lower-case letters, digits and underscores. -/
theorem isPackagePart_of_mem_operationIdOf {method : Method} {path : String} {c : Char}
    (member : c ∈ (operationIdOf method path).toList) : Text.isPackagePart c = true := by
  rw [operationIdOf_eq, String.toList_ofList] at member
  rcases Text.mem_or_exists_of_mem_intercalate member with isMark | ⟨word, isWord, inWord⟩
  · rw [List.mem_singleton.mp isMark]
    decide
  · rcases List.mem_cons.mp isWord with rfl | isWord
    · have keyParts : ∀ d ∈ method.key.toList, Text.isPackagePart d = true := by
        cases method <;> exact List.all_eq_true.mp (by decide)
      exact keyParts c inWord
    · have isPart := isLower_or_isDigit_of_mem_pathWords word isWord c inWord
      rw [Text.isPackagePart, isPart, Bool.true_or]

/-! ## Identifiers in a document -/

/-- The identifier that an operation of a document gives. -/
def identifier? (operation : Value) : Option String :=
  match operation.under? "operationId" with
  | some (.string id) => some id
  | _ => none

/-- The identifiers of all operations of a document. -/
def operationIds (document : Value) : List String :=
  (paths document).flatMap fun entry => entry.2.entries.filterMap fun found => identifier? found.2

theorem identifier?_operationValue (endpoint : Endpoint) :
    identifier? (operationValue endpoint) = some (operationId endpoint) := by
  have found : (operationValue endpoint).under? "operationId" =
      some (.string (operationId endpoint)) := by
    simp [operationValue, Value.under?, Entries.get?_append, get?_textEntry_of_ne,
      apply_ite (Entries.get? "operationId"), Entries.get?]
  rw [identifier?, found]

/-- The document of an API has the identifiers of its endpoints. -/
theorem perm_operationIds_document {api : Api}
    (distinct : (api.endpoints.map fun endpoint => (endpoint.method, endpoint.path)).Nodup) :
    (operationIds (document api)).Perm (api.endpoints.map operationId) := by
  have listed : operationIds (document api) =
      ((operations api.endpoints).flatMap fun entry =>
        entry.2.map fun found => identifier? found.2).filterMap id := by
    rw [operationIds, paths_document, List.flatMap_map, List.filterMap_flatMap]
    simp only [List.filterMap_map, Value.entries]
    rfl
  have regrouped : ((Entries.grouped Endpoint.path (fun endpoint => endpoint.method.key)
      operationValue api.endpoints).flatMap fun entry =>
        entry.2.map fun found => identifier? found.2).Perm
      (api.endpoints.map fun endpoint => identifier? (operationValue endpoint)) :=
    Entries.perm_flatMap_grouped (fun _ _ operation => identifier? operation) api.endpoints
  rw [listed, operations_eq_grouped distinct]
  refine (regrouped.filterMap id).trans ?_
  simp [List.filterMap_map, identifier?_operationValue]

end OpenApi

/-! ## Identifiers in the table of routes -/

namespace RoutesModule

open OpenApi

/-- The identifier on a line of the table: its third literal. -/
def identifier? (line : Text) : Option Text := do
  let rest ← Text.after? "    Route(" line
  let (_, rest) ← Text.literal? rest
  let rest ← Text.after? ", " rest
  let (_, rest) ← Text.literal? rest
  let rest ← Text.after? ", " rest
  let (id, _) ← Text.literal? rest
  some id

/-- The identifiers in the regions of a text. -/
def identifiers (path : String) (text : Text) : List Text :=
  match findRegions path text with
  | .ok regions =>
      regions.flatMap fun region => (Text.lines (region.body text)).filterMap identifier?
  | .error _ => []

/-- In an identifier nothing has to be escaped. -/
theorem flatMap_escaped_operationId (endpoint : Endpoint) :
    (operationId endpoint).toList.flatMap (Text.escaped (Text.delimiter (operationId endpoint))) =
      (operationId endpoint).toList := by
  apply Text.flatMap_escaped_eq_self
  intro c member
  have code := Text.code_of_isPackagePart (isPackagePart_of_mem_operationIdOf member)
  have apart {d : Char} (different : d.toNat < 48 ∨ d.toNat = 92) : c ≠ d := by
    rintro rfl
    omega
  refine ⟨?_, apart (.inr rfl), Text.isPrintable_of_code (by omega) (by omega)⟩
  rcases Text.delimiter_eq (operationId endpoint) with same | same <;> rw [same] <;>
    exact apart (.inl (by decide))

theorem identifier?_line (endpoint : Endpoint) :
    identifier? (line endpoint ++ ['\n']) = some (operationId endpoint).toList := by
  unfold line identifier?
  simp only [List.append_assoc, Text.after?_append, Text.literal?_quoted, Option.bind_eq_bind,
    Option.bind_some, flatMap_escaped_operationId]

theorem identifiers_text (path : String) (endpoints : List Endpoint) :
    identifiers path (text path endpoints) =
      endpoints.map fun endpoint => (operationId endpoint).toList := by
  obtain ⟨region, isFound, -, areLines⟩ := hasOneRegion_text path endpoints
  have ofLines : (endpoints.map fun endpoint => line endpoint ++ ['\n']).filterMap identifier? =
      endpoints.map fun endpoint => (operationId endpoint).toList := by
    simp only [List.filterMap_map, Function.comp_def, identifier?_line, List.filterMap_eq_map']
  have opening : identifier? ("ROUTES: list[Route] = [".toList ++ ['\n']) = none := by decide
  have closing : identifier? ("]".toList ++ ['\n']) = none := by decide
  rw [identifiers, isFound]
  dsimp only
  rw [List.flatMap_singleton, areLines, regionLines, List.map_cons, List.map_append,
    List.filterMap_cons_none opening, List.filterMap_append, List.map_map, List.map_singleton,
    List.filterMap_cons_none closing, List.filterMap_nil, List.append_nil]
  exact ofLines

end RoutesModule

/-! ## Accepted definitions -/

namespace OpenApi

/-- The identifiers that some endpoints get in the document of an API and in the table of
routes of every project for it. -/
structure Identifies (api : Api) (declared : List Endpoint) : Prop where
  document : (operationIds (document api)).Perm (declared.map operationId)
  table : ∀ (settings : ProjectSettings) (table : TranslationTable),
    RoutesModule.identifiers (ProjectFile.routes.path settings.packageName).label
      (ProjectFile.routes.text settings api table).shown =
        declared.map fun endpoint => (operationId endpoint).toList

theorem nodup_map_operationId_iff (endpoints : List Endpoint) :
    (endpoints.map operationId).Nodup ↔
      (endpoints.map fun endpoint => (endpoint.method, pathWords endpoint.path)).Nodup := by
  simp only [List.Nodup, List.pairwise_map, ne_eq, Prod.mk.injEq, operationId,
    operationIdOf_eq_iff]

/-- The endpoints of accepted definitions get their identifiers in the document and in the
table of routes, and these are distinct exactly if no two endpoints have the same method
and the same words in their paths. -/
theorem identifies_of_normalize {heading : Heading} {definitions : List Definition} {api : Api}
    (isApi : normalize heading definitions = .ok api) :
    let declared := definitions.flatMap Definition.endpoints
    Identifies api declared ∧
      (∀ first second : Endpoint, operationId first = operationId second ↔
        first.method = second.method ∧ pathWords first.path = pathWords second.path) ∧
      ((declared.map operationId).Nodup ↔
        (declared.map fun endpoint => (endpoint.method, pathWords endpoint.path)).Nodup) := by
  intro declared
  have sameEndpoints : api.endpoints = declared.map Normalize.completeEndpoint :=
    Api.endpoints_of_normalize isApi
  have sameIds {α : Type} (image : String → α) :
      api.endpoints.map (fun endpoint => image (operationId endpoint)) =
        declared.map fun endpoint => image (operationId endpoint) := by
    rw [sameEndpoints, List.map_map]
    rfl
  refine ⟨⟨?_, fun settings table => ?_⟩, fun _ _ => operationIdOf_eq_iff,
    nodup_map_operationId_iff declared⟩
  · rw [← sameIds fun id => id]
    exact perm_operationIds_document (Api.nodup_endpoints_of_normalize isApi)
  · rw [ProjectFile.text, LooseText.shown_ofText, RoutesModule.identifiers_text]
    exact sameIds String.toList

/-- A definition file with endpoints whose paths differ in their words. -/
def libraryFile : SourceText :=
  ⟨"library.toml", Text.ofLines [
    "[[endpoints]]", "path = \"/books\"", "method = \"GET\"",
    "[[endpoints]]", "path = \"/books\"", "method = \"POST\"",
    "[[endpoints]]", "path = \"/books/\x7bbookId\x7d\"", "method = \"GET\"",
    "[[endpoints]]", "path = \"/bookCopies/\x7bid\x7d/\"", "method = \"GET\""]⟩

/-- The endpoints of the file get different identifiers. -/
theorem identifies_of_libraryFile :
    ∃ definitions api, Definition.readAll [libraryFile] = .ok definitions ∧
      normalize {} definitions = .ok api ∧
      (definitions.flatMap Definition.endpoints).map operationId =
        ["get_books", "post_books", "get_books_by_book_id", "get_book_copies_by_id"] ∧
      (operationIds (document api)).Nodup := by
  have evaluated : ((Definition.readAll [libraryFile]).toOption.any fun definitions =>
      (normalize {} definitions).toOption.any fun _ =>
        decide ((definitions.flatMap Definition.endpoints).map operationId =
          ["get_books", "post_books", "get_books_by_book_id", "get_book_copies_by_id"]) &&
        decide ((definitions.flatMap Definition.endpoints).map fun endpoint =>
          (endpoint.method, pathWords endpoint.path)).Nodup) = true := by decide +kernel
  obtain ⟨definitions, areRead, evaluated⟩ := exists_of_any_toOption evaluated
  obtain ⟨api, isApi, evaluated⟩ := exists_of_any_toOption evaluated
  simp only [Bool.and_eq_true, decide_eq_true_eq] at evaluated
  obtain ⟨identifies, -, nodup_iff⟩ := identifies_of_normalize isApi
  exact ⟨definitions, api, areRead, isApi, evaluated.1,
    identifies.document.nodup_iff.mpr (nodup_iff.mpr evaluated.2)⟩

/-- A definition file with two endpoints whose paths differ in a separator only. -/
def twinPathsFile : SourceText :=
  ⟨"users.toml", Text.ofLines [
    "[[endpoints]]", "path = \"/user-info\"", "method = \"GET\"",
    "[[endpoints]]", "path = \"/user_info\"", "method = \"GET\""]⟩

/-- Two endpoints with different paths get the same identifier, in the document and in
the table of routes. -/
theorem operationId_repeated_of_twinPathsFile :
    ∃ definitions api, Definition.readAll [twinPathsFile] = .ok definitions ∧
      normalize {} definitions = .ok api ∧
      (definitions.flatMap Definition.endpoints).map Endpoint.path =
        ["/user-info", "/user_info"] ∧
      operationIds (document api) = ["get_user_info", "get_user_info"] ∧
      RoutesModule.identifiers "routes.py" (RoutesModule.text "routes.py" api.endpoints) =
        ["get_user_info".toList, "get_user_info".toList] := by
  have evaluated : ((Definition.readAll [twinPathsFile]).toOption.any fun definitions =>
      (normalize {} definitions).toOption.any fun api =>
        decide ((definitions.flatMap Definition.endpoints).map Endpoint.path =
          ["/user-info", "/user_info"]) &&
        decide (operationIds (document api) = ["get_user_info", "get_user_info"]) &&
        decide (api.endpoints.map (fun endpoint => (operationId endpoint).toList) =
          ["get_user_info".toList, "get_user_info".toList])) = true := by decide +kernel
  obtain ⟨definitions, areRead, evaluated⟩ := exists_of_any_toOption evaluated
  obtain ⟨api, isApi, evaluated⟩ := exists_of_any_toOption evaluated
  simp only [Bool.and_eq_true, decide_eq_true_eq] at evaluated
  exact ⟨definitions, api, areRead, isApi, evaluated.1.1, evaluated.1.2,
    (RoutesModule.identifiers_text _ _).trans evaluated.2⟩

end OpenApi

end ApiWorkshop
