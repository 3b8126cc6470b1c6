import Aimux.Core.Error
import Aimux.Core.JsonAccess
import Aimux.Lib.Multipart

/-! # Multipart forms

The builder of `multipart.rs`: fields and files one after another, and the body at the end. Its body is read
back as parts between delimiters, and each part as the field that was added.
-/

namespace Aimux.Provider

open Aimux.Core
open Aimux.Lib (utf8 utf8_append)
open Aimux.Lib.Multipart

/-- Of a text that goes into a header line. -/
def validateMultipartParam (value label : String) : Except AiMuxError Unit :=
  if (utf8 value).any fun b => b = 0x22 || b = 0x0d || b = 0x0a || b = 0 then
    .error (.invalidArgument ("invalid multipart " ++ label ++ ": must not contain '\"', CR, LF or NUL") none)
  else .ok ()

structure MultipartForm where
  boundary : List UInt8
  parts : List UInt8
  values : List (String × Json)

namespace MultipartForm

/-- The clock's nanoseconds are in the boundary. -/
def new (nanos : Option Int) : MultipartForm where
  boundary := utf8 ("----formdata-aimux-" ++ toString (nanos.getD 0))
  parts := []
  values := []

/-- A field, or an error and the form as it is then. -/
def text (form : MultipartForm) (name value : String) : Except AiMuxError Unit × MultipartForm :=
  match validateMultipartParam name "name" with
  | .error error => (.error error, form)
  | .ok () =>
    (.ok (), { form with
      parts := form.parts ++ (utf8 "--" ++ form.boundary ++ utf8 "\r\n") ++
        (utf8 "Content-Disposition: form-data; name=\"" ++ utf8 name ++ utf8 "\"\r\n\r\n") ++ utf8 value ++ utf8 "\r\n"
      values := insertField form.values name (.string value) })

def file (form : MultipartForm) (name filename mediaType : String) (data : List UInt8) :
    Except AiMuxError Unit × MultipartForm :=
  match (do
    validateMultipartParam name "name"
    validateMultipartParam filename "filename"
    validateMultipartParam mediaType "media_type") with
  | .error error => (.error error, form)
  | .ok () =>
    (.ok (), { form with
      parts := form.parts ++ (utf8 "--" ++ form.boundary ++ utf8 "\r\n") ++
        (utf8 "Content-Disposition: form-data; name=\"" ++ utf8 name ++ utf8 "\"; filename=\"" ++ utf8 filename ++
          utf8 "\"\r\n") ++
        (utf8 "Content-Type: " ++ utf8 mediaType ++ utf8 "\r\n\r\n") ++ data ++ utf8 "\r\n"
      values := insertField form.values name (.object [("filename", .string filename), ("mediaType", .string mediaType),
        ("size", .number (.int data.length))]) })

def intoParts (form : MultipartForm) : List UInt8 × List UInt8 × Json :=
  (form.parts ++ (utf8 "--" ++ form.boundary ++ utf8 "--\r\n"), utf8 "multipart/form-data; boundary=" ++ form.boundary,
    .object form.values)

/-- The body and its content type. -/
def finish (form : MultipartForm) : List UInt8 × List UInt8 := (form.intoParts.1, form.intoParts.2.1)

end MultipartForm

/-! ## Additions -/

/-- A call that adds something. -/
inductive Addition
  | text (name value : String)
  | file (name filename mediaType : String) (data : List UInt8)

def MultipartForm.add (form : MultipartForm) : Addition → Except AiMuxError Unit × MultipartForm
  | .text name value => form.text name value
  | .file name filename mediaType data => form.file name filename mediaType data

/-- The form after the calls, whatever each of them returned. -/
def MultipartForm.addAll (form : MultipartForm) (additions : List Addition) : MultipartForm :=
  additions.foldl (fun form addition => (form.add addition).2) form

/-! ## What is accepted -/

/-- A text without quotes, line ends and zeros. -/
def isParam (value : String) : Bool := !(utf8 value).any fun b => b = 0x22 || b = 0x0d || b = 0x0a || b = 0

namespace Addition

def accepted : Addition → Bool
  | .text name _ => isParam name
  | .file name filename mediaType _ => isParam name && isParam filename && isParam mediaType

def content : Addition → List UInt8
  | .text _ value => utf8 value
  | .file _ _ _ data => data

/-- What a reader should find. -/
def field : Addition → FormField
  | .text name value => ⟨utf8 name, none, none, utf8 value⟩
  | .file name filename mediaType data => ⟨utf8 name, some (utf8 filename), some (utf8 mediaType), data⟩

/-- The header lines, each with its line end. -/
def headers : Addition → List UInt8
  | .text name _ => utf8 "Content-Disposition: form-data; name=\"" ++ utf8 name ++ utf8 "\"" ++ CRLF
  | .file name filename mediaType _ =>
    utf8 "Content-Disposition: form-data; name=\"" ++ utf8 name ++ (utf8 "\"; filename=\"" ++ utf8 filename ++ utf8 "\"") ++
      CRLF ++ (utf8 "Content-Type: " ++ utf8 mediaType ++ CRLF)

/-- A part, from the end of its delimiter to the next one. -/
def part (addition : Addition) : List UInt8 := CRLF ++ (addition.headers ++ (CRLF ++ addition.content))

end Addition

theorem validateMultipartParam_eq (value label : String) : validateMultipartParam value label = if isParam value then .ok ()
    else .error (.invalidArgument ("invalid multipart " ++ label ++ ": must not contain '\"', CR, LF or NUL") none) := by
  unfold validateMultipartParam isParam
  cases (utf8 value).any fun b => b = 0x22 || b = 0x0d || b = 0x0a || b = 0 <;> rfl

/-- An accepted call appends a part between two pieces of a delimiter; any other changes nothing. -/
theorem add_parts (form : MultipartForm) (addition : Addition) :
    if addition.accepted then (form.add addition).1 = .ok () ∧ (form.add addition).2.boundary = form.boundary ∧
      (form.add addition).2.parts = form.parts ++ (utf8 "--" ++ form.boundary ++ (addition.part ++ CRLF))
    else (∃ error, (form.add addition).1 = .error error) ∧ (form.add addition).2 = form := by
  have hLines : utf8 "\"\r\n\r\n" = utf8 "\"" ++ CRLF ++ CRLF := by decide
  have hLine : utf8 "\"\r\n" = utf8 "\"" ++ CRLF := by decide
  have hBlank : utf8 "\r\n\r\n" = CRLF ++ CRLF := by decide
  have hEnd : utf8 "\r\n" = CRLF := by decide
  cases addition with
  | text name value =>
    rw [Addition.accepted, MultipartForm.add, MultipartForm.text, validateMultipartParam_eq]
    cases isParam name with
    | false => exact ⟨⟨_, rfl⟩, rfl⟩
    | true =>
      refine ⟨rfl, rfl, ?_⟩
      simp only [if_true, Addition.part, Addition.headers, Addition.content, hLines, hEnd, List.append_assoc]
  | file name filename mediaType data =>
    rw [Addition.accepted, MultipartForm.add, MultipartForm.file, validateMultipartParam_eq, validateMultipartParam_eq,
      validateMultipartParam_eq]
    cases isParam name with
    | false => exact ⟨⟨_, rfl⟩, rfl⟩
    | true =>
      cases isParam filename with
      | false => exact ⟨⟨_, rfl⟩, rfl⟩
      | true =>
        cases isParam mediaType with
        | false => exact ⟨⟨_, rfl⟩, rfl⟩
        | true =>
          refine ⟨rfl, rfl, ?_⟩
          simp only [if_true, Addition.part, Addition.headers, Addition.content, hLine, hBlank, hEnd, List.append_assoc]
          rfl

/-- A call that is rejected leaves the form as it is. -/
theorem add_rejected (form : MultipartForm) (addition : Addition) {error : AiMuxError}
    (h : (form.add addition).1 = .error error) : (form.add addition).2 = form := by
  have hParts := add_parts form addition
  split at hParts
  · rw [hParts.1] at h
    cases h
  · exact hParts.2

/-- What an accepted call appends. -/
def piece (boundary : List UInt8) (addition : Addition) : List UInt8 := utf8 "--" ++ boundary ++ (addition.part ++ CRLF)

theorem addAll_parts (form : MultipartForm) (additions : List Addition) :
    (form.addAll additions).boundary = form.boundary ∧
    (form.addAll additions).parts = form.parts ++ (additions.filter (·.accepted)).flatMap (piece form.boundary) := by
  induction additions generalizing form with
  | nil => exact ⟨rfl, (List.append_nil _).symm⟩
  | cons addition additions ih =>
    have hParts := add_parts form addition
    obtain ⟨hBoundary, hRest⟩ := ih (form.add addition).2
    have hAll : form.addAll (addition :: additions) = (form.add addition).2.addAll additions := rfl
    rw [hAll, hBoundary, hRest, List.filter_cons]
    split at hParts
    · rename_i hAccepted
      rw [if_pos hAccepted, hParts.2.1, hParts.2.2, List.flatMap_cons, List.append_assoc]
      exact ⟨rfl, rfl⟩
    · rename_i hRejected
      rw [if_neg hRejected, hParts.2]
      exact ⟨rfl, rfl⟩

/-! ## Delimiters -/

/-- The body with a line end before it: parts, each between two delimiters. -/
theorem pieces_delimited (boundary : List UInt8) (additions : List Addition) (rest : List UInt8) :
    CRLF ++ (additions.flatMap (piece boundary) ++ (utf8 "--" ++ boundary ++ rest)) =
      delimiterOf boundary ++ ((additions.map (·.part)).flatMap (· ++ delimiterOf boundary) ++ rest) := by
  induction additions with
  | nil => exact (List.append_assoc CRLF _ rest).symm
  | cons addition additions ih =>
    have hPiece : CRLF ++ ((addition :: additions).flatMap (piece boundary) ++ (utf8 "--" ++ boundary ++ rest)) =
        delimiterOf boundary ++ (addition.part ++
          (CRLF ++ (additions.flatMap (piece boundary) ++ (utf8 "--" ++ boundary ++ rest)))) := by
      simp only [List.flatMap_cons, piece, delimiterOf, List.append_assoc]
    rw [hPiece, ih]
    simp only [List.map_cons, List.flatMap_cons, List.append_assoc]

/-- No line of the content begins with the delimiter. -/
def DelimiterFree (boundary content : List UInt8) : Prop := ¬ delimiterOf boundary <:+: CRLF ++ content

theorem not_mem_utf8_of_isParam {value : String} (h : isParam value = true) :
    34 ∉ utf8 value ∧ 13 ∉ utf8 value ∧ 10 ∉ utf8 value := by
  unfold isParam at h
  rw [Bool.not_eq_true', List.any_eq_false] at h
  have hByte (b : UInt8) (hIs : b = 34 ∨ b = 13 ∨ b = 10) : b ∉ utf8 value := by
    intro hMem
    have hNot := h b hMem
    rcases hIs with rfl | rfl | rfl <;> exact hNot (by decide)
  exact ⟨hByte 34 (.inl rfl), hByte 13 (.inr (.inl rfl)), hByte 10 (.inr (.inr rfl))⟩

section

variable {boundary : List UInt8}

/-- A line that does not begin with a dash, with its line end. -/
theorem delimiterFree_line {line rest : List UInt8} {first : UInt8} (hFirst : line.head? = some first) (hDash : first ≠ 45)
    (hLine : 13 ∉ line) (hRest : DelimiterFree boundary rest) : DelimiterFree boundary (line ++ (CRLF ++ rest)) := by
  obtain ⟨tail, rfl⟩ := List.head?_eq_some_iff.mp hFirst
  have hEnd : 13 ∉ 10 :: first :: tail := List.not_mem_cons_of_ne_of_not_mem (by decide) hLine
  have hHere : ¬ 10 :: (utf8 "--" ++ boundary) <+: 10 :: first :: tail ++ (CRLF ++ rest) := by
    intro hPrefix
    exact hDash (List.cons_prefix_cons.mp (List.cons_prefix_cons.mp hPrefix).2).1.symm
  have hLines := not_infix_line hEnd hHere hRest
  exact hLines

theorem delimiterFree_blank {rest : List UInt8} (hRest : DelimiterFree boundary rest) :
    DelimiterFree boundary (CRLF ++ rest) := by
  have hEnd : 13 ∉ [(10 : UInt8)] := by decide
  have hHere : ¬ 10 :: (utf8 "--" ++ boundary) <+: [10] ++ (CRLF ++ rest) := by
    intro hPrefix
    cases (List.cons_prefix_cons.mp (List.cons_prefix_cons.mp hPrefix).2).1
  exact not_infix_line hEnd hHere hRest

/-- The line of the disposition, with what follows the first quoted string from its last quote on. -/
def dispositionLine (name : String) (more : List UInt8) : List UInt8 :=
  utf8 "Content-Disposition: form-data; name=\"" ++ (utf8 name ++ 34 :: more)

def filenameParam (filename : String) : List UInt8 := utf8 "; filename=\"" ++ (utf8 filename ++ [34])

def typeLine (mediaType : String) : List UInt8 := utf8 "Content-Type: " ++ utf8 mediaType

theorem part_text (name value : String) : (Addition.text name value).part =
    CRLF ++ (dispositionLine name [] ++ (CRLF ++ (CRLF ++ utf8 value))) := by
  have hQuote : utf8 "\"" = [34] := by decide
  simp only [Addition.part, Addition.headers, Addition.content, dispositionLine, hQuote, List.append_assoc]

theorem part_file (name filename mediaType : String) (data : List UInt8) : (Addition.file name filename mediaType data).part =
    CRLF ++ (dispositionLine name (filenameParam filename) ++
      (CRLF ++ (typeLine mediaType ++ (CRLF ++ (CRLF ++ data))))) := by
  have hQuote : utf8 "\"" = [34] := by decide
  have hFilename : utf8 "\"; filename=\"" = 34 :: utf8 "; filename=\"" := by decide
  simp only [Addition.part, Addition.headers, Addition.content, dispositionLine, filenameParam, typeLine, hQuote, hFilename,
    List.append_assoc, List.cons_append]

theorem dispositionLine_plain {name : String} {more : List UInt8} (hName : isParam name = true) (hMore : 13 ∉ more) :
    13 ∉ dispositionLine name more := by
  have hFixed : 13 ∉ utf8 "Content-Disposition: form-data; name=\"" := by decide
  rw [dispositionLine, List.mem_append, List.mem_append, List.mem_cons]
  rintro (h | h | h | h)
  · exact hFixed h
  · exact (not_mem_utf8_of_isParam hName).2.1 h
  · cases h
  · exact hMore h

theorem filenameParam_plain {filename : String} (hFilename : isParam filename = true) : 13 ∉ filenameParam filename := by
  have hFixed : 13 ∉ utf8 "; filename=\"" := by decide
  rw [filenameParam, List.mem_append, List.mem_append]
  rintro (h | h | h)
  · exact hFixed h
  · exact (not_mem_utf8_of_isParam hFilename).2.1 h
  · exact absurd h (by decide)

theorem dispositionLine_ne_nil (name : String) (more : List UInt8) : dispositionLine name more ≠ [] :=
  List.append_ne_nil_of_left_ne_nil (by decide) _

theorem typeLine_ne_nil (mediaType : String) : typeLine mediaType ≠ [] :=
  List.append_ne_nil_of_left_ne_nil (by decide) _

theorem typeLine_plain {mediaType : String} (hType : isParam mediaType = true) : 13 ∉ typeLine mediaType := by
  have hFixed : 13 ∉ utf8 "Content-Type: " := by decide
  rw [typeLine, List.mem_append]
  rintro (h | h)
  · exact hFixed h
  · exact (not_mem_utf8_of_isParam hType).2.1 h

theorem part_delimiterFree {addition : Addition} (hAccepted : addition.accepted = true)
    (hContent : DelimiterFree boundary addition.content) : ¬ delimiterOf boundary <:+: addition.part := by
  have hBlank := delimiterFree_blank hContent
  cases addition with
  | text name value =>
    rw [part_text]
    exact delimiterFree_line rfl (by decide) (dispositionLine_plain hAccepted List.not_mem_nil) hBlank
  | file name filename mediaType data =>
    obtain ⟨hParams, hType⟩ := (Bool.and_eq_true _ _).mp hAccepted
    obtain ⟨hName, hFilename⟩ := (Bool.and_eq_true _ _).mp hParams
    rw [part_file]
    exact delimiterFree_line rfl (by decide) (dispositionLine_plain hName (filenameParam_plain hFilename))
      (delimiterFree_line rfl (by decide) (typeLine_plain hType) hBlank)

end

/-! ## One part -/

/-- The read header of a disposition. -/
theorem readHeader_disposition (name : String) {more : List UInt8} (hMore : ∀ b ∈ (34 :: more).getLast?, isLwsp b = false) :
    readHeader (dispositionLine name more) = some (utf8 "content-disposition",
      utf8 "form-data" ++ 59 :: (utf8 " name" ++ 61 :: 34 :: (utf8 name ++ 34 :: more))) := by
  have hFixed : utf8 "Content-Disposition: form-data; name=\"" = utf8 "Content-Disposition" ++ 58 :: 32 ::
      (utf8 "form-data" ++ 59 :: (utf8 " name" ++ [61, 34])) := by decide
  have hLine : dispositionLine name more = utf8 "Content-Disposition" ++ 58 :: 32 ::
      (utf8 "form-data" ++ 59 :: (utf8 " name" ++ 61 :: 34 :: (utf8 name ++ 34 :: more))) := by
    simp only [dispositionLine, hFixed, List.append_assoc, List.cons_append, List.nil_append]
  have hKey : lower (trim (utf8 "Content-Disposition")) = utf8 "content-disposition" := by decide
  rw [hLine, readHeader_append (by decide), hKey, trim_blank, trim_eq_self]
  · intro b hFirst
    cases hFirst
    rfl
  · have hEnd : utf8 "form-data" ++ 59 :: (utf8 " name" ++ 61 :: 34 :: (utf8 name ++ 34 :: more)) =
        (utf8 "form-data" ++ 59 :: (utf8 " name" ++ 61 :: 34 :: utf8 name)) ++ (34 :: more) := by
      simp only [List.append_assoc, List.cons_append]
    rw [hEnd, List.getLast?_append_of_ne_nil _ (List.cons_ne_nil _ _)]
    exact hMore

/-! What a part is read as, before the values of its parameters are. -/

theorem readPart_text {name : String} (value : String) (hName : isParam name = true) :
    readPart (Addition.text name value).part =
      readField [(utf8 "content-disposition",
        utf8 "form-data" ++ 59 :: (utf8 " name" ++ 61 :: 34 :: (utf8 name ++ 34 :: [])))] (utf8 value) := by
  have hMore : ∀ b ∈ [(34 : UInt8)].getLast?, isLwsp b = false := by
    rintro b hLast
    cases hLast
    rfl
  rw [part_text, readPart_append, readHeaders_line (dispositionLine_ne_nil name []) (dispositionLine_plain hName List.not_mem_nil),
    readHeader_disposition name hMore, readHeaders_blank]
  rfl

theorem readPart_file {name filename mediaType : String} (data : List UInt8) (hName : isParam name = true)
    (hFilename : isParam filename = true) (hType : isParam mediaType = true) :
    readPart (Addition.file name filename mediaType data).part =
      readField [(utf8 "content-disposition",
        utf8 "form-data" ++ 59 :: (utf8 " name" ++ 61 :: 34 :: (utf8 name ++ 34 :: filenameParam filename))),
          (utf8 "content-type", trim (utf8 mediaType))] data := by
  have hMore : ∀ b ∈ (34 :: filenameParam filename).getLast?, isLwsp b = false := by
    have hEnd : 34 :: filenameParam filename = (34 :: (utf8 "; filename=\"" ++ utf8 filename)) ++ [34] := by
      simp only [filenameParam, List.append_assoc, List.cons_append]
    rw [hEnd, List.getLast?_concat]
    rintro b hLast
    cases hLast
    rfl
  have hFixed : utf8 "Content-Type: " = utf8 "Content-Type" ++ [58, 32] := by decide
  have hTypeLine : typeLine mediaType = utf8 "Content-Type" ++ 58 :: 32 :: utf8 mediaType := by
    simp only [typeLine, hFixed, List.append_assoc, List.cons_append, List.nil_append]
  have hKey : lower (trim (utf8 "Content-Type")) = utf8 "content-type" := by decide
  have hTypeHeader : readHeader (typeLine mediaType) = some (utf8 "content-type", trim (utf8 mediaType)) := by
    rw [hTypeLine, readHeader_append (by decide), hKey, trim_blank]
  rw [part_file, readPart_append,
    readHeaders_line (dispositionLine_ne_nil name _) (dispositionLine_plain hName (filenameParam_plain hFilename)),
    readHeader_disposition name hMore, readHeaders_line (typeLine_ne_nil mediaType) (typeLine_plain hType), hTypeHeader,
    readHeaders_blank]
  rfl

/-- No backslash in what is quoted, and no blank or tabulator at the ends of the media type. -/
def Addition.plain : Addition → Bool
  | .text name _ => 92 ∉ utf8 name
  | .file name filename mediaType _ => 92 ∉ utf8 name && 92 ∉ utf8 filename && trim (utf8 mediaType) = utf8 mediaType

/-- A disposition is read by its parameters. -/
theorem readField_disposition (quoted content : List UInt8) (others : List (List UInt8 × List UInt8)) :
    readField ((utf8 "content-disposition", utf8 "form-data" ++ 59 :: (utf8 " name" ++ 61 :: 34 :: quoted)) :: others)
      content = (readQuoted quoted).bind fun found => (readParams found.2).map fun params =>
        ⟨found.1, params.lookup (utf8 "filename"), others.lookup (utf8 "content-type"), content⟩ := by
  have hDisposition : ((utf8 "content-disposition",
      utf8 "form-data" ++ 59 :: (utf8 " name" ++ 61 :: 34 :: quoted)) :: others).lookup (utf8 "content-disposition") =
        some (utf8 "form-data" ++ 59 :: (utf8 " name" ++ 61 :: 34 :: quoted)) := List.lookup_cons_self
  have hKind : lower (trim (utf8 "form-data")) = utf8 "form-data" := by decide
  have hName : lower (trim (utf8 " name")) = utf8 "name" := by decide
  have hOther : ((utf8 "content-disposition",
      utf8 "form-data" ++ 59 :: (utf8 " name" ++ 61 :: 34 :: quoted)) :: others).lookup (utf8 "content-type") =
        others.lookup (utf8 "content-type") := by
    rw [List.lookup_cons]
    rfl
  rw [readField, hDisposition, Option.bind_some, readValue_append (by decide), readParams_quoted (by decide), hKind, hName,
    hOther]
  cases readQuoted quoted with
  | none => rfl
  | some found =>
    rw [Option.bind_some, Option.bind_some]
    cases readParams found.2 with
    | none => rfl
    | some params =>
      have hSame : ((utf8 "name", found.1) :: params).lookup (utf8 "name") = some found.1 := List.lookup_cons_self
      have hFilename : ((utf8 "name", found.1) :: params).lookup (utf8 "filename") = params.lookup (utf8 "filename") := by
        rw [List.lookup_cons]
        rfl
      rw [Option.map_some, Option.map_some, Option.map_some, Option.bind_some, if_pos rfl, hSame, hFilename]
      rfl

/-- A part is read as the field that was added just when that field is plain. -/
theorem readPart_iff {addition : Addition} (hAccepted : addition.accepted = true) :
    readPart addition.part = some addition.field ↔ addition.plain = true := by
  cases addition with
  | text name value =>
    have hQuote := (not_mem_utf8_of_isParam hAccepted).1
    rw [readPart_text value hAccepted, readField_disposition, Addition.plain, decide_eq_true_eq, Addition.field]
    constructor
    · intro h
      obtain ⟨found, hFound, hField⟩ := Option.bind_eq_some_iff.mp h
      obtain ⟨params, _, hSame⟩ := Option.map_eq_some_iff.mp hField
      obtain ⟨read, after⟩ := found
      have hName : read = utf8 name := congrArg FormField.name hSame
      rw [hName] at hFound
      exact readQuoted_self hQuote hFound
    · intro hPlain
      rw [readQuoted_append hQuote hPlain, Option.bind_some, readParams_nil]
      rfl
  | file name filename mediaType data =>
    obtain ⟨hParams, hType⟩ := (Bool.and_eq_true _ _).mp hAccepted
    obtain ⟨hName, hFilename⟩ := (Bool.and_eq_true _ _).mp hParams
    have hQuote := (not_mem_utf8_of_isParam hName).1
    have hFileQuote := (not_mem_utf8_of_isParam hFilename).1
    have hParam : filenameParam filename = 59 :: (utf8 " filename" ++ 61 :: 34 :: (utf8 filename ++ [34])) := rfl
    have hKey : lower (trim (utf8 " filename")) = utf8 "filename" := by decide
    rw [readPart_file data hName hFilename hType, readField_disposition, Addition.plain, Bool.and_eq_true, Bool.and_eq_true,
      decide_eq_true_eq, decide_eq_true_eq, decide_eq_true_eq, Addition.field]
    constructor
    · intro h
      obtain ⟨⟨read, after⟩, hFound, hField⟩ := Option.bind_eq_some_iff.mp h
      obtain ⟨params, hParams, hSame⟩ := Option.map_eq_some_iff.mp hField
      have hRead : read = utf8 name := congrArg FormField.name hSame
      have hContentType : some (trim (utf8 mediaType)) = some (utf8 mediaType) := congrArg FormField.contentType hSame
      have hLookup : params.lookup (utf8 "filename") = some (utf8 filename) := congrArg FormField.filename hSame
      rw [hRead] at hFound
      have hPlain := readQuoted_self hQuote hFound
      refine ⟨⟨hPlain, ?_⟩, Option.some.inj hContentType⟩
      cases (readQuoted_append hQuote hPlain (filenameParam filename)).symm.trans hFound
      rw [hParam, readParams_quoted (by decide), hKey] at hParams
      obtain ⟨⟨readFile, afterFile⟩, hFoundFile, hRest⟩ := Option.bind_eq_some_iff.mp hParams
      obtain ⟨others, _, rfl⟩ := Option.map_eq_some_iff.mp hRest
      have hReadFile : readFile = utf8 filename := Option.some.inj (List.lookup_cons_self.symm.trans hLookup)
      rw [hReadFile] at hFoundFile
      exact readQuoted_self hFileQuote hFoundFile
    · rintro ⟨⟨hPlain, hFilePlain⟩, hTrim⟩
      rw [readQuoted_append hQuote hPlain, Option.bind_some, hParam, readParams_quoted (by decide), hKey,
        readQuoted_append hFileQuote hFilePlain, Option.bind_some, readParams_nil, Option.map_some, Option.map_some, hTrim]
      rfl

/-! ## The whole body -/

theorem utf8_repr_bytes (n : Nat) : ∀ b ∈ utf8 (Nat.repr n), 48 ≤ b ∧ b ≤ 57 := by
  intro b hMem
  obtain ⟨c, hChar, hByte⟩ := List.mem_flatMap.mp hMem
  rw [Nat.toList_repr] at hChar
  have hDigit := Char.isDigit_iff_toNat.mp (Nat.isDigit_of_mem_toDigits (by decide) (by decide) hChar)
  have hLow : 48 ≤ c.val.toNat := hDigit.1
  have hHigh : c.val.toNat ≤ 57 := hDigit.2
  have hShort : c.utf8Size = 1 :=
    Char.utf8Size_eq_one_iff.mpr (UInt32.le_iff_toNat_le.mpr (le_trans hHigh (by decide)))
  rw [String.utf8EncodeChar_eq_singleton hShort, List.mem_singleton] at hByte
  have hValue : b.toNat = c.val.toNat := by
    rw [hByte]
    exact Nat.mod_eq_of_lt (by omega)
  rw [UInt8.le_iff_toNat_le, UInt8.le_iff_toNat_le, hValue]
  exact ⟨hLow, hHigh⟩

theorem boundary_bytes (nanos : Option Int) : ∀ b ∈ (MultipartForm.new nanos).boundary,
    b = 45 ∨ (48 ≤ b ∧ b ≤ 57) ∨ (97 ≤ b ∧ b ≤ 122) := by
  have hLetters : ((utf8 "----formdata-aimux-").all fun b => b = 45 || (97 ≤ b && b ≤ 122)) = true := by decide
  intro b hMem
  rw [MultipartForm.new, utf8_append] at hMem
  rcases List.mem_append.mp hMem with hFront | hNumber
  · have hByte := List.all_eq_true.mp hLetters b hFront
    simp only [Bool.or_eq_true, Bool.and_eq_true, decide_eq_true_eq] at hByte
    exact hByte.imp_right Or.inr
  · cases hNanos : nanos.getD 0 with
    | ofNat n =>
      rw [hNanos] at hNumber
      exact .inr (.inl (utf8_repr_bytes n b hNumber))
    | negSucc n =>
      rw [hNanos] at hNumber
      have hText : toString (Int.negSucc n) = "-" ++ Nat.repr (n + 1) := rfl
      rw [hText, utf8_append] at hNumber
      rcases List.mem_append.mp hNumber with hSign | hDigits
      · exact .inl (List.mem_singleton.mp hSign)
      · exact .inr (.inl (utf8_repr_bytes _ b hDigits))

/-- A reader finds the parts that were added. -/
theorem readForm_finish (nanos : Option Int) (additions : List Addition)
    (hContents : ∀ addition ∈ additions.filter (·.accepted),
      DelimiterFree (MultipartForm.new nanos).boundary addition.content) :
    readForm ((MultipartForm.new nanos).addAll additions).finish.2 ((MultipartForm.new nanos).addAll additions).finish.1 =
      ((additions.filter (·.accepted)).map (·.part)).mapM readPart := by
  obtain ⟨hBoundary, hParts⟩ := addAll_parts (MultipartForm.new nanos) additions
  have hBytes := boundary_bytes nanos
  have hFirst : (MultipartForm.new nanos).boundary.head? = some 45 := by
    rw [MultipartForm.new, utf8_append]
    rfl
  have hNone (b : UInt8) (hNot : ¬ (b = 45 ∨ (48 ≤ b ∧ b ≤ 57) ∨ (97 ≤ b ∧ b ≤ 122))) :
      b ∉ (MultipartForm.new nanos).boundary := fun hMem => hNot (hBytes b hMem)
  have hNew : (MultipartForm.new nanos).parts = [] := rfl
  rw [hNew, List.nil_append] at hParts
  have hType : ((MultipartForm.new nanos).addAll additions).finish.2 =
      utf8 "multipart/form-data; boundary=" ++ ((MultipartForm.new nanos).addAll additions).boundary := rfl
  have hBody : ((MultipartForm.new nanos).addAll additions).finish.1 = ((MultipartForm.new nanos).addAll additions).parts ++
      (utf8 "--" ++ ((MultipartForm.new nanos).addAll additions).boundary ++ utf8 "--\r\n") := rfl
  rw [hType, hBody, hBoundary, hParts]
  generalize (MultipartForm.new nanos).boundary = boundary at *
  have hPlain (b : UInt8) (hMem : b ∈ boundary) : isLwsp b = false := by
    refine Bool.eq_false_iff.mpr fun hBlank => ?_
    rcases (Bool.or_eq_true _ _).mp hBlank with hIs | hIs
    · exact hNone 32 (by decide) (of_decide_eq_true hIs ▸ hMem)
    · exact hNone 9 (by decide) (of_decide_eq_true hIs ▸ hMem)
  have hTrim : trim boundary = boundary :=
    trim_eq_self (fun b hHead => hPlain b (List.mem_of_head? hHead)) fun b hLast => hPlain b (List.mem_of_getLast? hLast)
  have hValue : readValue (utf8 "multipart/form-data; boundary=" ++ boundary) =
      some (utf8 "multipart/form-data", [(utf8 "boundary", boundary)]) := by
    have hFixed : utf8 "multipart/form-data; boundary=" =
        utf8 "multipart/form-data" ++ 59 :: (utf8 " boundary" ++ [61]) := by decide
    have hText : utf8 "multipart/form-data; boundary=" ++ boundary =
        utf8 "multipart/form-data" ++ 59 :: (utf8 " boundary" ++ 61 :: boundary) := by
      simp only [hFixed, List.append_assoc, List.cons_append, List.nil_append]
    have hKind : lower (trim (utf8 "multipart/form-data")) = utf8 "multipart/form-data" := by decide
    have hKey : lower (trim (utf8 " boundary")) = utf8 "boundary" := by decide
    have hQuote : boundary.head? ≠ some 34 := by
      rw [hFirst]
      decide
    rw [hText, readValue_append (by decide), readParams_token (by decide) (hNone 59 (by decide)) hTrim hQuote, hKind, hKey,
      Option.map_some]
  have hLookup : [(utf8 "boundary", boundary)].lookup (utf8 "boundary") = some boundary := List.lookup_cons_self
  have hMark : (13 : UInt8) ∉ 10 :: (utf8 "--" ++ boundary) := by
    rw [List.mem_cons, List.mem_append]
    rintro (hSame | hDash | hMem)
    · cases hSame
    · exact absurd hDash (by decide)
    · exact hNone 13 (by decide) hMem
  have hDelimiter : delimiterOf boundary = 13 :: (10 :: (utf8 "--" ++ boundary)) := rfl
  have hBreak (rest : List UInt8) : breakOn (delimiterOf boundary) (delimiterOf boundary ++ rest) = some ([], rest) :=
    breakOn_append hMark (not_infix_of_not_mem List.not_mem_nil) rest
  have hClose : utf8 "--\r\n" = utf8 "--" ++ CRLF := by decide
  rw [readForm, hValue, Option.bind_some, hLookup, Option.bind_some, if_pos rfl, pieces_delimited, hBreak, Option.bind_some,
    hClose]
  have hFree : ∀ part ∈ (additions.filter (·.accepted)).map (·.part), ¬ delimiterOf boundary <:+: part := by
    intro part hPart
    obtain ⟨addition, hMem, rfl⟩ := List.mem_map.mp hPart
    exact part_delimiterFree (List.mem_filter.mp hMem).2 (hContents addition hMem)
  have hEnds : ∀ part ∈ (additions.filter (·.accepted)).map (·.part), part.head? = some 13 := by
    intro part hPart
    obtain ⟨addition, _, rfl⟩ := List.mem_map.mp hPart
    rfl
  have hSplit := splitParts_append hDelimiter hMark hFree hEnds (by decide) CRLF (delimiterOf_ne_nil boundary)
  exact congrArg (fun found => Option.bind found fun parts => parts.mapM readPart) hSplit

theorem mapM_eq_some_iff {α β : Type} {f : α → Option β} {items : List α} {found : List β} :
    items.mapM f = some found ↔ List.Forall₂ (fun item value => f item = some value) items found := by
  induction items generalizing found with
  | nil =>
    rw [List.mapM_nil, List.forall₂_nil_left_iff]
    exact ⟨fun h => (Option.some.inj h).symm, fun h => congrArg some h.symm⟩
  | cons item rest ih =>
    rw [List.mapM_cons]
    constructor
    · intro h
      obtain ⟨value, hValue, h⟩ := Option.bind_eq_some_iff.mp h
      obtain ⟨values, hValues, h⟩ := Option.bind_eq_some_iff.mp h
      cases h
      exact .cons hValue (ih.mp hValues)
    · intro h
      cases h with
      | cons hValue hValues => exact Option.bind_eq_some_iff.mpr ⟨_, hValue, Option.bind_eq_some_iff.mpr ⟨_, ih.mpr hValues, rfl⟩⟩

/-- Of a form whose contents hold no delimiter, the accepted fields are read back just when they are all plain; and a call
that is rejected leaves the form as it is. -/
theorem readForm_iff (nanos : Option Int) (additions : List Addition)
    (hContents : ∀ addition ∈ additions.filter (·.accepted),
      DelimiterFree (MultipartForm.new nanos).boundary addition.content) :
    (readForm ((MultipartForm.new nanos).addAll additions).finish.2 ((MultipartForm.new nanos).addAll additions).finish.1 =
        some ((additions.filter (·.accepted)).map (·.field)) ↔
      ∀ addition ∈ additions.filter (·.accepted), addition.plain = true) ∧
    ∀ form addition error, (MultipartForm.add form addition).1 = .error error → (form.add addition).2 = form := by
  refine ⟨?_, fun form addition _ => add_rejected form addition⟩
  rw [readForm_finish nanos additions hContents, mapM_eq_some_iff, List.forall₂_map_left_iff, List.forall₂_map_right_iff,
    List.forall₂_same]
  refine forall₂_congr fun addition hMem => ?_
  exact readPart_iff (List.mem_filter.mp hMem).2

theorem readForm_iff_hello :
    readForm ((MultipartForm.new none).addAll [.text "a" "hello"]).finish.2
      ((MultipartForm.new none).addAll [.text "a" "hello"]).finish.1 =
      some (([Addition.text "a" "hello"].filter (·.accepted)).map (·.field)) :=
  (readForm_iff none [.text "a" "hello"] (by unfold DelimiterFree; decide +kernel)).1.mpr (by decide +kernel)

/-- A backslash before the last quote of the name, and a file name that ends it. -/
theorem backslash_forges :
    [Addition.file "a\\" "; filename=x" "t/p" []].all (·.accepted) = true ∧
    readForm ((MultipartForm.new none).addAll [.file "a\\" "; filename=x" "t/p" []]).finish.2
      ((MultipartForm.new none).addAll [.file "a\\" "; filename=x" "t/p" []]).finish.1 =
      some [⟨utf8 "a\"; filename=", some (utf8 "x\""), some (utf8 "t/p"), []⟩] := by
  decide +kernel

end Aimux.Provider
