import Mathlib
import ShiboriEngine.Library.Delimiter
import ShiboriEngine.Library.PrefixCode
import ShiboriEngine.Diagnostics

/-! # A description identifies its error

    The text of an error is its names, each closed by its own separator, the
    message, and a tag for every number that was attached; the causes follow
    behind semicolons.  So as long as no message holds a bracket or a
    semicolon, the description gives everything back. -/

namespace ShiboriDiagnostics

open ShiboriError PrefixCode Delimiter

/-! ## The names -/

/-- Every code. -/
def allCodes : List ErrorCode :=
  [.invalidConfiguration, .invalidState, .invalidResourceLimit, .invalidSchema,
    .invalidBlock, .invalidDigestText, .ioReadFailed, .ioWriteFailed,
    .ioNoProgress, .unexpectedEnd, .checksumMismatch, .malformedContainer,
    .invalidRecord, .invalidMagic, .unsupportedFormatVersion,
    .unsupportedFeature, .missingComponent, .limitExceeded, .allocationFailed,
    .arithmeticOverflow, .rangeExceeded, .operationCancelled,
    .pluginContractViolation, .pluginFailure, .invariantViolation]

/-- Every operation. -/
def allOperations : List Operation :=
  [.unknown, .configure, .validateSchema, .validateBlock, .read, .write,
    .parse, .encode, .decode, .finalize, .inspect, .verify, .loadPlugin]

/-- Different codes have different names. -/
theorem code_toString_inj {a b : ErrorCode}
    (h : a.toString.toList = b.toString.toList) : a = b := by
  have hall : ∀ code : ErrorCode, code ∈ allCodes := by
    intro code
    cases code <;> decide
  have hnodup : (allCodes.map fun code => code.toString.toList).Nodup := by
    decide
  exact List.inj_on_of_nodup_map hnodup (hall a) (hall b) h

/-- So have different operations. -/
theorem operation_toString_inj {a b : Operation}
    (h : a.toString.toList = b.toString.toList) : a = b := by
  have hall : ∀ operation : Operation, operation ∈ allOperations := by
    intro operation
    cases operation <;> decide
  have hnodup : (allOperations.map fun operation =>
      operation.toString.toList).Nodup := by
    decide
  exact List.inj_on_of_nodup_map hnodup (hall a) (hall b) h

/-- The characters of the names: no separator of a description is among
    them. -/
def isNameChar (c : Char) : Bool := c.isLower || c = '_'

/-- The name of a category is letters and underscores. -/
theorem category_chars (category : ErrorCategory) :
    category.toString.toList.all isNameChar = true := by
  cases category <;> rfl

/-- So is that of a code. -/
theorem code_chars (code : ErrorCode) :
    code.toString.toList.all isNameChar = true := by
  cases code <;> rfl

/-- So is that of an operation. -/
theorem operation_chars (operation : Operation) :
    operation.toString.toList.all isNameChar = true := by
  cases operation <;> rfl

/-- A name has no separator in it. -/
theorem not_mem_of_chars {name : List Char} {sep : Char}
    (h : name.all isNameChar = true)
    (hsep : isNameChar sep = false) : sep ∉ name := by
  intro hmem
  rw [List.all_eq_true.mp h sep hmem] at hsep
  cases hsep

/-! ## Tags -/

/-- What a number was attached as. -/
inductive TagKind where
  | offset
  | block
  | field
  | component
deriving DecidableEq

/-- The name in the tag. -/
def TagKind.name : TagKind → String
  | .offset => "offset"
  | .block => "block"
  | .field => "field"
  | .component => "component"

/-- The text of a tag. -/
def tagText (tag : TagKind × Nat) : List Char :=
  ' ' :: '[' :: (tag.1.name.toList
    ++ '=' :: (Nat.toDigits 10 tag.2 ++ [']']))

/-- Different tags have different names. -/
theorem tagName_inj {a b : TagKind}
    (h : a.name.toList = b.name.toList) : a = b := by
  cases a <;> cases b <;> first | rfl | (revert h; decide)

/-- The name of a tag is letters. -/
theorem tagName_chars (kind : TagKind) :
    kind.name.toList.all isNameChar = true := by
  cases kind <;> rfl

/-- Only digits are in the digits of a number. -/
theorem not_mem_digits {c : Char} (hc : c.isDigit = false) (n : Nat) :
    c ∉ Nat.toDigits 10 n := by
  intro hmem
  have hdigit := Nat.isDigit_of_mem_toDigits (by decide) (by decide) hmem
  rw [hdigit] at hc
  cases hc

/-- Different numbers have different digits. -/
theorem digits_inj {m n : Nat} (h : Nat.toDigits 10 m = Nat.toDigits 10 n) :
    m = n := by
  have hread := congrArg (fun digits => Nat.ofDigitChars 10 digits 0) h
  rw [Nat.ofDigitChars_ten_toDigits, Nat.ofDigitChars_ten_toDigits] at hread
  exact hread

/-- A tag states its own end. -/
theorem tag_selfDelimiting : SelfDelimiting (fun _ => True) tagText := by
  rintro ⟨kind, n⟩ ⟨kind', n'⟩ rest rest' _ _ heq
  simp only [tagText, List.cons_append, List.append_assoc,
    List.nil_append] at heq
  have hbracket := (List.cons.inj (List.cons.inj heq).2).2
  obtain ⟨hname, hvalue⟩ := split_unique
    (not_mem_of_chars (tagName_chars kind) rfl)
    (not_mem_of_chars (tagName_chars kind') rfl) (Behind.cons '=' _)
    (Behind.cons '=' _) hbracket
  obtain ⟨hdigits, hrest⟩ := split_unique (not_mem_digits rfl n)
    (not_mem_digits rfl n') (Behind.cons ']' _) (Behind.cons ']' _)
    (List.cons.inj hvalue).2
  rw [tagName_inj hname, digits_inj hdigits, (List.cons.inj hrest).2]
  exact ⟨rfl, rfl⟩

/-- The text of the tags tells them apart. -/
theorem tags_inj {ts us : List (TagKind × Nat)}
    (h : ts.flatMap tagText = us.flatMap tagText) : ts = us := by
  have hstuck : Stuck (fun _ => True) tagText [] :=
    Stuck.nil fun _ _ hnil => by cases hnil
  have hts : Reading (fun _ => True) tagText (ts.flatMap tagText) ts [] :=
    ⟨fun _ _ => trivial, (List.append_nil _).symm, hstuck⟩
  have hus : Reading (fun _ => True) tagText (us.flatMap tagText) us [] :=
    ⟨fun _ _ => trivial, (List.append_nil _).symm, hstuck⟩
  rw [h] at hts
  exact (hts.unique tag_selfDelimiting hus).1

/-- What is in no name, no number and no bracket is in no tag. -/
theorem not_mem_tagText {c : Char} (hname : isNameChar c = false)
    (hdigit : c.isDigit = false) (hc : c ∉ [' ', '[', '=', ']'])
    (tag : TagKind × Nat) : c ∉ tagText tag := by
  simp only [List.mem_cons, List.not_mem_nil, or_false, not_or] at hc
  simp only [tagText, List.mem_cons, List.mem_append, List.not_mem_nil,
    or_false, not_or]
  exact ⟨hc.1, hc.2.1, not_mem_of_chars (tagName_chars tag.1) hname, hc.2.2.1,
    not_mem_digits hdigit tag.2, hc.2.2.2⟩

/-! ## One error -/

/-- A message with no `[` and no `;`: nothing in it passes for a tag or for
    the start of a cause. -/
def Plain (message : String) : Prop :=
  '[' ∉ message.toList ∧ ';' ∉ message.toList

/-- The tag of a number that is there. -/
def tag (kind : TagKind) (value : Option Nat) : List (TagKind × Nat) :=
  (value.map (Prod.mk kind)).toList

/-- What was attached, in the order of the text. -/
def tags (error : Context) : List (TagKind × Nat) :=
  tag .offset (error.byteOffset.map UInt64.toNat)
    ++ tag .block (error.blockId.map UInt64.toNat)
    ++ tag .field (error.fieldId.map UInt32.toNat)
    ++ tag .component (error.componentId.map UInt32.toNat)

/-- The text before the tags. -/
def header (error : Context) : List Char :=
  error.category.toString.toList ++ '/' :: (error.code.toString.toList
    ++ ' ' :: ("during ".toList ++ (error.operation.toString.toList
      ++ ':' :: ' ' :: error.message.toList)))

/-- The text of one error. -/
def contextText (error : Context) : List Char :=
  header error ++ (tags error).flatMap tagText

/-- `append_tag` appends the text of the tag. -/
theorem appendTag_toList (output : String) (kind : TagKind)
    (value : Option Nat) :
    (appendTag output kind.name value).toList
      = output.toList ++ (tag kind value).flatMap tagText := by
  cases value with
  | none => exact (List.append_nil _).symm
  | some n =>
      simp [appendTag, tag, tagText, String.toList_append, Nat.toList_repr]

/-- Describing one error appends its text. -/
theorem appendContext_toList (output : String) (error : Context) :
    (appendContext output error).toList
      = output.toList ++ contextText error := by
  rw [appendContext,
    show "component" = TagKind.component.name from rfl, appendTag_toList,
    show "field" = TagKind.field.name from rfl, appendTag_toList,
    show "block" = TagKind.block.name from rfl, appendTag_toList,
    show "offset" = TagKind.offset.name from rfl, appendTag_toList]
  simp [contextText, header, tags, String.toList_append]

/-- What is in no name and not in the message is not in the header. -/
theorem not_mem_header {c : Char} (hname : isNameChar c = false)
    (hc : c ∉ ['/', ' ', ':']) {error : Context}
    (hmessage : c ∉ error.message.toList) : c ∉ header error := by
  simp only [List.mem_cons, List.not_mem_nil, or_false, not_or] at hc
  have hword : "during".toList.all isNameChar = true := rfl
  have hduring : c ∉ "during ".toList := by
    intro hmem
    rcases List.mem_append.mp (show c ∈ "during".toList ++ [' '] from hmem)
      with hfront | hspace
    · exact not_mem_of_chars hword hname hfront
    · exact hc.2.1 (List.mem_singleton.mp hspace)
  simp only [header, List.mem_cons, List.mem_append, not_or]
  exact ⟨not_mem_of_chars (category_chars _) hname, hc.1,
    not_mem_of_chars (code_chars _) hname, hc.2.1, hduring,
    not_mem_of_chars (operation_chars _) hname, hc.2.2, hc.2.1, hmessage⟩

/-- The header gives back the code, the operation and the message. -/
theorem header_inj {error error' : Context} (h : header error = header error') :
    error.code = error'.code ∧ error.operation = error'.operation
      ∧ error.message = error'.message := by
  obtain ⟨_, hcode⟩ := split_unique
    (not_mem_of_chars (category_chars _) rfl)
    (not_mem_of_chars (category_chars _) rfl) (Behind.cons '/' _)
    (Behind.cons '/' _) h
  obtain ⟨hcodes, hduring⟩ := split_unique
    (not_mem_of_chars (code_chars _) rfl) (not_mem_of_chars (code_chars _) rfl)
    (Behind.cons ' ' _) (Behind.cons ' ' _) (List.cons.inj hcode).2
  obtain ⟨hoperations, hmessage⟩ := split_unique
    (not_mem_of_chars (operation_chars _) rfl)
    (not_mem_of_chars (operation_chars _) rfl) (Behind.cons ':' _)
    (Behind.cons ':' _) (List.append_cancel_left (List.cons.inj hduring).2)
  exact ⟨code_toString_inj hcodes, operation_toString_inj hoperations,
    String.toList_inj.mp (List.cons.inj (List.cons.inj hmessage).2).2⟩

/-- Tags begin with a space that belongs to no header, and a bracket. -/
theorem tagsText_cases (ts : List (TagKind × Nat)) :
    ts.flatMap tagText = []
      ∨ ∃ more, ts.flatMap tagText = [' '] ++ '[' :: more := by
  cases ts with
  | nil => exact Or.inl rfl
  | cons tag ts => exact Or.inr ⟨_, rfl⟩

/-- Header and tags fall apart at the first bracket. -/
theorem contextText_split {error error' : Context}
    (hplain : Plain error.message) (hplain' : Plain error'.message)
    (h : contextText error = contextText error') :
    header error = header error' ∧ tags error = tags error' := by
  have hheader := not_mem_header (c := '[') rfl (by decide) hplain.1
  have hheader' := not_mem_header (c := '[') rfl (by decide) hplain'.1
  have hfront : ∀ {text : List Char}, '[' ∉ text → '[' ∉ text ++ [' '] := by
    intro text htext hmem
    rcases List.mem_append.mp hmem with hold | hnew
    · exact htext hold
    · cases List.mem_singleton.mp hnew
  have hboth : header error = header error'
      ∧ (tags error).flatMap tagText = (tags error').flatMap tagText := by
    rw [contextText, contextText] at h
    rcases tagsText_cases (tags error) with hnone | ⟨more, hsome⟩
    · rcases tagsText_cases (tags error') with hnone' | ⟨more', hsome'⟩
      · rw [hnone, hnone', List.append_nil, List.append_nil] at h
        exact ⟨h, hnone.trans hnone'.symm⟩
      · rw [hnone, hsome', List.append_nil] at h
        exact (hheader (h ▸ by simp)).elim
    · rcases tagsText_cases (tags error') with hnone' | ⟨more', hsome'⟩
      · rw [hsome, hnone', List.append_nil] at h
        exact (hheader' (h ▸ by simp)).elim
      · rw [hsome, hsome', ← List.append_assoc, ← List.append_assoc] at h
        obtain ⟨hspace, hmore⟩ := split_unique (hfront hheader)
          (hfront hheader') (Behind.cons '[' _) (Behind.cons '[' _) h
        exact ⟨List.append_cancel_right hspace, by rw [hsome, hsome', hmore]⟩
  exact ⟨hboth.1, tags_inj hboth.2⟩

/-- A tag gives back its number. -/
theorem lookup_tag (kind wanted : TagKind) (value : Option Nat) :
    (tag kind value).lookup wanted = if wanted = kind then value else none := by
  cases value with
  | none => exact (ite_self none).symm
  | some n =>
      by_cases hkind : wanted = kind
      · simp [tag, hkind]
      · have hbeq : (wanted == kind) = false := beq_eq_false_iff_ne.mpr hkind
        simp [tag, List.lookup, hkind, hbeq]

/-- Tags give back what was attached. -/
theorem tags_get {error error' : Context} (h : tags error = tags error') :
    error.byteOffset = error'.byteOffset ∧ error.blockId = error'.blockId
      ∧ error.fieldId = error'.fieldId
      ∧ error.componentId = error'.componentId := by
  have hlookup : ∀ kind,
      (tags error).lookup kind = (tags error').lookup kind := by
    intro kind
    rw [h]
  have hword : Function.Injective (Option.map UInt64.toNat) :=
    Option.map_injective fun _ _ => UInt64.toNat_inj.mp
  have hid : Function.Injective (Option.map UInt32.toNat) :=
    Option.map_injective fun _ _ => UInt32.toNat_inj.mp
  simp only [tags, List.lookup_append, lookup_tag] at hlookup
  refine ⟨hword ?_, hword ?_, hid ?_, hid ?_⟩
  · simpa using hlookup .offset
  · simpa using hlookup .block
  · simpa using hlookup .field
  · simpa using hlookup .component

/-- **ONE ERROR**: its text gives it back. -/
theorem contextText_inj {error error' : Context}
    (hplain : Plain error.message) (hplain' : Plain error'.message)
    (h : contextText error = contextText error') : error = error' := by
  obtain ⟨hheader, htags⟩ := contextText_split hplain hplain' h
  obtain ⟨hcode, hoperation, hmessage⟩ := header_inj hheader
  obtain ⟨hoffset, hblock, hfield, hcomponent⟩ := tags_get htags
  obtain ⟨⟨code, operation, message, field, component⟩, offset, block⟩ := error
  obtain ⟨⟨code', operation', message', field', component'⟩, offset', block'⟩
    := error'
  cases hcode
  cases hoperation
  cases hmessage
  cases hoffset
  cases hblock
  cases hfield
  cases hcomponent
  rfl

/-- A plain error has no semicolon in its text. -/
theorem not_mem_contextText {error : Context} (hplain : Plain error.message) :
    ';' ∉ contextText error := by
  intro hmem
  rcases List.mem_append.mp hmem with hfront | htag
  · exact not_mem_header rfl (by decide) hplain.2 hfront
  · obtain ⟨one, _, hone⟩ := List.mem_flatMap.mp htag
    exact not_mem_tagText rfl rfl (by decide) one hone

/-! ## Chains of causes -/

/-- All messages of the chain are plain. -/
def Readable : Diagnostic → Prop
  | .root context => Plain context.message
  | .caused context cause => Plain context.message ∧ Readable cause

/-- The text of an error and its causes. -/
def text : Diagnostic → List Char
  | .root context => contextText context
  | .caused context cause =>
      contextText context ++ ';' :: (" caused by ".toList ++ text cause)

/-- `append_description` appends the text. -/
theorem appendDescription_toList (output : String) (error : Diagnostic) :
    (appendDescription output error).toList = output.toList ++ text error := by
  induction error generalizing output with
  | root context => exact appendContext_toList output context
  | caused context cause ih =>
      rw [appendDescription, ih, String.toList_append, appendContext_toList,
        List.append_assoc, List.append_assoc]
      rfl

/-- A description is the text. -/
theorem describe_toList (error : Diagnostic) :
    error.describe.toList = text error := appendDescription_toList "" error

/-- **A CHAIN**: its text gives it back. -/
theorem text_inj {error error' : Diagnostic} (hread : Readable error)
    (hread' : Readable error') (h : text error = text error') :
    error = error' := by
  induction error generalizing error' with
  | root context =>
      cases error' with
      | root context' => exact congrArg _ (contextText_inj hread hread' h)
      | caused context' cause' =>
          have hsemicolon := not_mem_contextText hread
          rw [show contextText context = text (.root context) from rfl, h]
            at hsemicolon
          exact (hsemicolon (by simp [text])).elim
  | caused context cause ih =>
      cases error' with
      | root context' =>
          have hsemicolon := not_mem_contextText hread'
          rw [show contextText context' = text (.root context') from rfl, ← h]
            at hsemicolon
          exact (hsemicolon (by simp [text])).elim
      | caused context' cause' =>
          obtain ⟨hcontext, hmore⟩ := split_unique
            (not_mem_contextText hread.1) (not_mem_contextText hread'.1)
            (Behind.cons ';' _) (Behind.cons ';' _) h
          rw [contextText_inj hread.1 hread'.1 hcontext,
            ih hread.2 hread'.2
              (List.append_cancel_left (List.cons.inj hmore).2)]

/-! ## What was attached last -/

/-- The offset, if it is one. -/
def byteOffset? : Attachment → Option UInt64
  | .byteOffset value => some value
  | _ => none

/-- The block, if it is one. -/
def blockId? : Attachment → Option UInt64
  | .blockId value => some value
  | _ => none

/-- The field, if it is one. -/
def fieldId? : Attachment → Option UInt32
  | .fieldId value => some value
  | _ => none

/-- The component, if it is one. -/
def componentId? : Attachment → Option UInt32
  | .componentId value => some value
  | _ => none

/-- The cause, if it is one. -/
def cause? : Attachment → Option Diagnostic
  | .cause value => some value
  | _ => none

/-- The last value of one kind. -/
def lastOf {α : Type} (kind : Attachment → Option α)
    (attachments : List Attachment) : Option α :=
  (attachments.filterMap kind).getLast?

/-- The last attachment counts first. -/
theorem lastOf_concat {α : Type} (kind : Attachment → Option α)
    (attachments : List Attachment) (attachment : Attachment) :
    lastOf kind (attachments ++ [attachment])
      = (kind attachment).or (lastOf kind attachments) := by
  rw [lastOf, List.filterMap_append]
  cases hkind : kind attachment with
  | none => simp [hkind, lastOf]
  | some value => simp [hkind]

section
variable {code : ErrorCode} {operation : Operation} {message : String}

/-- What these attachments leave. -/
def attached (code : ErrorCode) (operation : Operation) (message : String)
    (attachments : List Attachment) : Context where
  code := code
  operation := operation
  message := message
  fieldId := lastOf fieldId? attachments
  componentId := lastOf componentId? attachments
  byteOffset := lastOf byteOffset? attachments
  blockId := lastOf blockId? attachments

/-- An error with these attachments. -/
structure Holds (error : Diagnostic) (code : ErrorCode)
    (operation : Operation) (message : String)
    (attachments : List Attachment) : Prop where
  context : error.context = attached code operation message attachments
  cause : error.cause = lastOf cause? attachments

/-- An update changes the context and keeps the cause. -/
theorem update_context (change : Context → Context) (error : Diagnostic) :
    (error.update change).context = change error.context
      ∧ (error.update change).cause = error.cause := by
  cases error with
  | root context => exact ⟨rfl, rfl⟩
  | caused context cause => exact ⟨rfl, rfl⟩

/-- **STEP**: one attachment more replaces what was there of its kind. -/
theorem Holds.attach {error : Diagnostic} {attachments : List Attachment}
    (h : Holds error code operation message attachments)
    (attachment : Attachment) :
    Holds (error.attach attachment) code operation message
      (attachments ++ [attachment]) := by
  have hupdate : ∀ change,
      (error.update change).context
          = change (attached code operation message attachments)
        ∧ (error.update change).cause = lastOf cause? attachments := by
    intro change
    obtain ⟨hcontext, hcause⟩ := update_context change error
    exact ⟨hcontext.trans (congrArg change h.context), hcause.trans h.cause⟩
  constructor
  · simp only [attached, lastOf_concat]
    cases attachment with
    | byteOffset value => exact (hupdate _).1
    | blockId value => exact (hupdate _).1
    | fieldId value => exact (hupdate _).1
    | componentId value => exact (hupdate _).1
    | cause value => exact h.context
  · rw [lastOf_concat]
    cases attachment with
    | byteOffset value => exact (hupdate _).2
    | blockId value => exact (hupdate _).2
    | fieldId value => exact (hupdate _).2
    | componentId value => exact (hupdate _).2
    | cause value => rfl

/-- **RUN**: whatever is attached, in any order, the last of each kind
    stays. -/
theorem holds_run (attachments : List Attachment) :
    Holds (attachments.foldl Diagnostic.attach
      (Diagnostic.create code operation message)) code operation message
      attachments := by
  induction attachments using List.reverseRecOn with
  | nil => exact ⟨rfl, rfl⟩
  | append_singleton attachments attachment ih =>
      rw [List.foldl_concat]
      exact ih.attach attachment

/-- The causes that were attached are readable. -/
def ReadableCauses (attachments : List Attachment) : Prop :=
  ∀ cause, Attachment.cause cause ∈ attachments → Readable cause

/-- What is put together from plain messages is readable. -/
theorem Holds.readable {error : Diagnostic} {attachments : List Attachment}
    (h : Holds error code operation message attachments)
    (hmessage : Plain message) (hcauses : ReadableCauses attachments) :
    Readable error := by
  have hplain : Plain error.context.message := by
    rw [h.context]
    exact hmessage
  cases error with
  | root context => exact hplain
  | caused context cause =>
      refine ⟨hplain, hcauses cause ?_⟩
      have hlast : cause ∈ attachments.filterMap cause? :=
        List.mem_of_getLast? h.cause.symm
      obtain ⟨attachment, hmem, hcause⟩ := List.mem_filterMap.mp hlast
      cases attachment with
      | cause value =>
          cases hcause
          exact hmem
      | _ => cases hcause

end

/-- An error is its context and its cause. -/
theorem ext_context {error error' : Diagnostic}
    (hcontext : error.context = error'.context)
    (hcause : error.cause = error'.cause) : error = error' := by
  cases error with
  | root context =>
      cases error' with
      | root context' => exact congrArg _ hcontext
      | caused context' cause' => cases hcause
  | caused context cause =>
      cases error' with
      | root context' => cases hcause
      | caused context' cause' =>
          cases hcontext
          cases hcause
          rfl

/-- **DESCRIPTIONS**: two errors, however they were put together, are
    described alike exactly when they have the code, the operation, the
    message and the last attachment of every kind in common. -/
theorem description_identifies (code code' : ErrorCode)
    (operation operation' : Operation) (message message' : String)
    (attachments attachments' : List Attachment)
    (hmessage : Plain message) (hmessage' : Plain message')
    (hcauses : ReadableCauses attachments)
    (hcauses' : ReadableCauses attachments') :
    (attachments.foldl Diagnostic.attach
        (Diagnostic.create code operation message)).describe
      = (attachments'.foldl Diagnostic.attach
        (Diagnostic.create code' operation' message')).describe
      ↔ code = code' ∧ operation = operation' ∧ message = message'
        ∧ lastOf byteOffset? attachments = lastOf byteOffset? attachments'
        ∧ lastOf blockId? attachments = lastOf blockId? attachments'
        ∧ lastOf fieldId? attachments = lastOf fieldId? attachments'
        ∧ lastOf componentId? attachments = lastOf componentId? attachments'
        ∧ lastOf cause? attachments = lastOf cause? attachments' := by
  have h : Holds _ code operation message attachments := holds_run attachments
  have h' : Holds _ code' operation' message' attachments' :=
    holds_run attachments'
  have hread := h.readable hmessage hcauses
  have hread' := h'.readable hmessage' hcauses'
  generalize attachments.foldl Diagnostic.attach
    (Diagnostic.create code operation message) = error at h hread ⊢
  generalize attachments'.foldl Diagnostic.attach
    (Diagnostic.create code' operation' message') = error' at h' hread' ⊢
  rw [← String.toList_inj, describe_toList, describe_toList]
  constructor
  · intro htext
    have heq := text_inj hread hread' htext
    have hcontext := h.context.symm.trans
      ((congrArg Diagnostic.context heq).trans h'.context)
    have hcause := h.cause.symm.trans
      ((congrArg Diagnostic.cause heq).trans h'.cause)
    injection hcontext with herror hoffset hblock
    injection herror with hcode hoperation hmessages hfield hcomponent
    exact ⟨hcode, hoperation, hmessages, hoffset, hblock, hfield, hcomponent,
      hcause⟩
  · rintro ⟨rfl, rfl, rfl, hoffset, hblock, hfield, hcomponent, hcause⟩
    have hcontext : error.context = error'.context := by
      rw [h.context, h'.context, attached, attached, hoffset, hblock, hfield,
        hcomponent]
    rw [ext_context hcontext (h.cause.trans (hcause.trans h'.cause.symm))]

/-- What a sink says of a write that failed at an offset. -/
def writeFault (offset : UInt64) : Diagnostic :=
  (Diagnostic.create .ioWriteFailed .write
    "file write failed: Input/output error").withByteOffset offset

/-- Its message is plain. -/
theorem writeFault_readable (offset : UInt64) :
    Readable (writeFault offset) := by
  have hmessage : Plain "file write failed: Input/output error" := by
    constructor <;> decide
  exact hmessage

/-- The field that was named first is forgotten, and so is the first cause. -/
theorem description_identifies_at_writeFault :
    ([.fieldId 1, .cause (writeFault 40), .fieldId 2,
        .cause (writeFault 64)].foldl Diagnostic.attach
        (Diagnostic.create .invalidBlock .validateBlock
          "column null count exceeds row count")).describe
      = ([.cause (writeFault 64), .fieldId 2].foldl Diagnostic.attach
        (Diagnostic.create .invalidBlock .validateBlock
          "column null count exceeds row count")).describe := by
  have hmessage : Plain "column null count exceeds row count" := by
    constructor <;> decide
  refine (description_identifies .invalidBlock .invalidBlock .validateBlock
    .validateBlock "column null count exceeds row count"
    "column null count exceeds row count"
    [.fieldId 1, .cause (writeFault 40), .fieldId 2, .cause (writeFault 64)]
    [.cause (writeFault 64), .fieldId 2] hmessage hmessage ?_ ?_).mpr
      ⟨rfl, rfl, rfl, rfl, rfl, rfl, rfl, rfl⟩
  · intro cause hmem
    simp only [List.mem_cons, List.not_mem_nil, or_false, reduceCtorEq,
      false_or, Attachment.cause.injEq] at hmem
    rcases hmem with rfl | rfl <;> exact writeFault_readable _
  · intro cause hmem
    simp only [List.mem_cons, List.not_mem_nil, or_false, reduceCtorEq,
      Attachment.cause.injEq] at hmem
    exact hmem ▸ writeFault_readable _

/-- A semicolon in a message can pass for a cause. -/
example : (Diagnostic.create .ioReadFailed .read
      "x; caused by io/io_write_failed during write: y").describe
    = ((Diagnostic.create .ioReadFailed .read "x").withCause
      (Diagnostic.create .ioWriteFailed .write "y")).describe := by
  decide

/-- A bracket in a message can pass for a tag. -/
example : (Diagnostic.create .ioReadFailed .read "x [offset=1]").describe
    = ((Diagnostic.create .ioReadFailed .read "x").withByteOffset 1).describe :=
  by decide

end ShiboriDiagnostics
