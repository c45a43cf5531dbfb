import DocumentPipeline.FakeProvider
import Mathlib.Data.Bool.AllAny
import Mathlib.Data.List.Forall2

/-! When the fake provider returns a valid extraction that names the vendor of
the text. The marker is searched in the lower-cased text and the name is cut
from the original, so what matters is how lower-casing moves the marker. -/

namespace PyText

theorem find_append_absent {first : Char} {needle text : Text} {lead : Text}
    (absent : first ∉ lead) :
    find (first :: needle) (lead ++ text) =
      (find (first :: needle) text).map (· + lead.length) := by
  induction lead with
  | nil => exact Option.map_id'.symm
  | cons c lead ih =>
    have other : ¬first :: needle <+: c :: (lead ++ text) := by
      rw [List.cons_prefix_cons]
      rintro ⟨rfl, -⟩
      exact absent List.mem_cons_self
    rw [List.cons_append, find, if_neg other, ih fun among => absent (List.mem_cons_of_mem _ among),
      Option.map_map]
    rfl

/-- What `str.lower` makes of one character. Only U+0130 and U+212A give an
ASCII letter without being one. -/
structure Lowered (width : Char → Nat) (c : Char) (piece : Text) : Prop where
  length : piece.length = width c
  nonempty : piece ≠ []
  ascii : c.toNat < 128 → piece = [c.toLower]
  other : 128 ≤ c.toNat → ∀ d ∈ piece, d.toNat < 128 → d = 'i' ∨ d = 'k'

/-- `str.lower` replaces each character by a piece whose length the character
fixes; its choice may depend on the context, as for a final sigma. -/
def LowersByCharacter (lower : Text → Text) : Prop :=
  ∃ width : Char → Nat, ∀ text, ∃ pieces, lower text = pieces.flatten ∧
    List.Forall₂ (Lowered width) text pieces

/-- A needle that `str.lower` leaves alone and that only ASCII can spell. -/
structure Plain (needle : Text) : Prop where
  ascii : ∀ c ∈ needle, c.toNat < 128
  spelled : 'i' ∉ needle ∧ 'k' ∉ needle

variable {width : Char → Nat} {needle text : Text} {pieces : List Text}

theorem Plain.tail {c : Char} (plain : Plain (c :: needle)) : Plain needle :=
  ⟨fun c' among => plain.ascii c' (List.mem_cons_of_mem _ among),
    fun among => plain.spelled.1 (List.mem_cons_of_mem _ among),
    fun among => plain.spelled.2 (List.mem_cons_of_mem _ among)⟩

theorem Lowered.absent {c d : Char} {piece : Text} (lowered : Lowered width c piece)
    (outside : 128 ≤ c.toNat) (plain : Plain needle) (among : d ∈ needle) : d ∉ piece := by
  intro within
  obtain rfl | rfl := lowered.other outside d within (plain.ascii d among)
  · exact plain.spelled.1 among
  · exact plain.spelled.2 among

theorem toLower_outside {c : Char} (outside : 128 ≤ c.toNat) : c.toLower = c := by
  have beyond : ¬(c.val ≥ 'A'.val ∧ c.val ≤ 'Z'.val) := by
    rintro ⟨-, upper⟩
    have bound : c.toNat ≤ 90 := upper
    omega
  unfold Char.toLower
  rw [dif_neg beyond]

theorem starts_lowered (plain : Plain needle) (lowered : List.Forall₂ (Lowered width) text pieces) :
    needle <+: pieces.flatten ↔ needle <+: text.map Char.toLower := by
  induction needle generalizing text pieces with
  | nil => exact iff_of_true List.nil_prefix List.nil_prefix
  | cons d needle ih =>
    cases lowered with
    | nil => rfl
    | @cons c piece text pieces first rest =>
      rw [List.flatten_cons, List.map_cons]
      by_cases inside : c.toNat < 128
      · rw [first.ascii inside, List.singleton_append, List.cons_prefix_cons, List.cons_prefix_cons,
          ih plain.tail rest]
      · have outside : 128 ≤ c.toNat := not_lt.mp inside
        have absent := first.absent outside plain List.mem_cons_self
        obtain ⟨e, piece, rfl⟩ := List.exists_cons_of_ne_nil first.nonempty
        rw [List.cons_append, List.cons_prefix_cons, List.cons_prefix_cons, toLower_outside outside]
        have small := plain.ascii d List.mem_cons_self
        constructor
        · rintro ⟨rfl, -⟩
          exact absurd List.mem_cons_self absent
        · rintro ⟨rfl, -⟩
          exact absurd small inside

/-- Lower-casing moves the needle by what the characters in front of it gain. -/
theorem find_lowered {first : Char} (plain : Plain (first :: needle))
    (lowered : List.Forall₂ (Lowered width) text pieces) :
    find (first :: needle) pieces.flatten =
      (find (first :: needle) (text.map Char.toLower)).map fun index =>
        ((text.take index).map width).sum := by
  induction lowered with
  | nil => rfl
  | @cons c piece text pieces head rest ih =>
    have starts := starts_lowered plain (.cons head rest)
    rw [List.map_cons] at starts
    by_cases here : first :: needle <+: c.toLower :: text.map Char.toLower
    · rw [List.map_cons, find, if_pos here]
      have found := starts.mpr here
      obtain ⟨e, more, same⟩ : ∃ e more, (piece :: pieces).flatten = e :: more := by
        obtain ⟨more, same⟩ := found
        exact ⟨first, needle ++ more, same.symm⟩
      rw [same] at found ⊢
      rw [find, if_pos found]
      rfl
    · rw [List.map_cons, find, if_neg here, List.flatten_cons, Option.map_map]
      have skipped : find (first :: needle) (piece ++ pieces.flatten) =
          (find (first :: needle) pieces.flatten).map (· + piece.length) := by
        by_cases inside : c.toNat < 128
        · obtain rfl := head.ascii inside
          rw [List.flatten_cons] at starts
          rw [List.singleton_append] at starts ⊢
          rw [find, if_neg fun found => here (starts.mp found)]
          rfl
        · exact find_append_absent (head.absent (not_lt.mp inside) plain List.mem_cons_self)
      rw [skipped, ih, Option.map_map, head.length]
      congr 1
      funext index
      simp only [Function.comp_apply, List.take_succ_cons, List.map_cons, List.sum_cons]
      omega

theorem length_lowered (lowered : List.Forall₂ (Lowered width) text pieces) :
    pieces.flatten.length = (text.map width).sum := by
  induction lowered with
  | nil => rfl
  | cons head rest ih =>
    rw [List.flatten_cons, List.length_append, ih, head.length, List.map_cons, List.sum_cons]

theorem lowered_ascii (lowered : List.Forall₂ (Lowered width) text pieces)
    (ascii : ∀ c ∈ text, c.toNat < 128) : pieces.flatten = text.map Char.toLower := by
  induction lowered with
  | nil => rfl
  | cons head rest ih =>
    rw [List.flatten_cons, List.map_cons, head.ascii (ascii _ List.mem_cons_self),
      ih fun c among => ascii c (List.mem_cons_of_mem _ among)]
    rfl

end PyText

namespace DocumentPipeline
open EffectProgram PyText

/-- `model_validate` accepts a dict that fits the schema and the dump keeps its
scalar fields. -/
def Pydantic.Accepts (pydantic : Pydantic) : Prop :=
  ∀ cls data, cls.Validates data → ∃ answer, pydantic.validate cls (.value data) = .ok answer ∧
    ∀ name type value, (name, FieldType.nullable type) ∈ cls.fields →
      data.field? name = some value → answer.data.field? name = some value

namespace FakeProvider

def calm : Protocol ProviderOp ProviderOp.Val Exn Unit :=
  .tracking (fun _ o => o = .maybeFail)
    (fun | .maybeFail, r => r = .ok () | .parse .., _ => False) (fun _ _ _ => ())

def lineAfter (rest : Text) : Text := strip (rest.takeWhile fun c => !isLineBreak c)

def orPlaceholder (name : Text) : String :=
  if name = [] then "Example Vendor" else String.ofList name

/-- Where `vendor:` first stands, in either case. -/
def vendorAt (text : Text) : Option Nat := find "vendor:".toList (text.map Char.toLower)

/-- The trimmed rest of the line after the first `vendor:`, or the placeholder. -/
def vendorName (text : Text) : String :=
  match vendorAt text with
  | none => "Example Vendor"
  | some index => orPlaceholder (lineAfter (text.drop (index + 7)))

def Extracts (pydantic : Pydantic) (lower : Text → Text) (text : Text)
    (documentType : DocumentType) : Prop :=
  wp calm (extract pydantic lower text documentType) (fun r _ => ∃ output, r = .ok output ∧
    output.documentType = documentType ∧ (schemaRegistry documentType).Validates output.data ∧
    (documentType = .invoice → output.data.field? "vendor_name" = some (.str (vendorName text)))) ()

/-- What stands after the marker once lower-casing the text in front of it has
moved its end. -/
def movedRest (lower : Text → Text) (text : Text) (index : Nat) : Text :=
  text.drop ((lower (text.take index)).length + 7)

/-- The text goes on where the marker's end is moved to, and the line reads the
same from there. -/
def MarkerKept (lower : Text → Text) (text : Text) : Prop :=
  ∀ index, vendorAt text = some index → movedRest lower text index ≠ [] ∧
    orPlaceholder (lineAfter (movedRest lower text index)) =
      orPlaceholder (lineAfter (text.drop (index + 7)))

variable {pydantic : Pydantic} {lower : Text → Text} {text : Text} {documentType : DocumentType}

theorem vendor_plain : Plain "vendor:".toList :=
  ⟨List.all_iff_forall_prop.mp (by decide), by decide⟩

theorem find_vendor (letters : LowersByCharacter lower) :
    find (lower "vendor:".toList) (lower text) =
      (vendorAt text).map fun index => (lower (text.take index)).length := by
  obtain ⟨width, byCharacter⟩ := letters
  have gained : ∀ text, (lower text).length = (text.map width).sum := fun text => by
    obtain ⟨pieces, whole, lowered⟩ := byCharacter text
    rw [whole, length_lowered lowered]
  have same : lower "vendor:".toList = "vendor:".toList := by
    obtain ⟨pieces, whole, lowered⟩ := byCharacter "vendor:".toList
    rw [whole, lowered_ascii lowered vendor_plain.ascii]
    decide
  obtain ⟨pieces, whole, lowered⟩ := byCharacter text
  rw [same, whole, vendorAt]
  simp only [gained]
  exact find_lowered vendor_plain lowered

@[simp] theorem fits_null (type : ScalarType) : type.fits .null = true := by
  cases type <;> rfl

@[simp] theorem fits_str (value : String) : ScalarType.str.fits (.str value) = true := rfl

@[simp] theorem fits_num (value : ℚ) : ScalarType.float.fits (.num value) = true := rfl

@[simp] theorem fits_date (value : String) : ScalarType.date.fits (.str value) = isIsoDate value := rfl

@[simp] theorem fits_snippet (text : Text) : ScalarType.str.fits (snippet text) = true := by
  unfold snippet
  dsimp only
  split <;> rfl

theorem fakePayload_validates {payload : Json}
    (made : fakePayload lower documentType text = .ok payload) :
    (schemaRegistry documentType).Validates payload := by
  cases documentType with
  | invoice =>
    simp only [fakePayload] at made
    cases found : findAfter lower text "vendor:" with
    | error error => rw [found] at made; cases made
    | ok vendor =>
      rw [found] at made
      cases made
      have dates : isIsoDate "2026-01-15" = true ∧ isIsoDate "2026-02-15" = true := by decide +kernel
      simp [ModelClass.Validates, schemaRegistry, ModelClass.fields, fieldsFit, Json.field?, List.lookup_cons,
        FieldType.fits, invoiceLineItem, dates]
      norm_num
  | resume | supportTicket | generic =>
    cases made
    simp [ModelClass.Validates, schemaRegistry, ModelClass.fields, fieldsFit, Json.field?, List.lookup_cons,
      FieldType.fits, educationEntry, experienceEntry]
    norm_num

theorem fakePayload_invoice {payload : Json} (made : fakePayload lower .invoice text = .ok payload) :
    ∃ vendor, findAfter lower text "vendor:" = .ok vendor ∧
      payload.field? "vendor_name" = some (.str (vendor.getD "Example Vendor")) := by
  cases found : findAfter lower text "vendor:" with
  | error error =>
    rw [fakePayload, found] at made
    cases made
  | ok vendor =>
    rw [fakePayload, found] at made
    cases made
    exact ⟨vendor, rfl, rfl⟩

theorem exists_fakePayload {vendor : Option String}
    (found : findAfter lower text "vendor:" = .ok vendor) :
    ∃ payload, fakePayload lower .invoice text = .ok payload := by
  rw [fakePayload, found]
  exact ⟨_, rfl⟩

theorem wp_maybeFail {α : Type} {f : Unit → ProviderProg α} {Q : Except Exn α → Unit → Prop} :
    wp calm (maybeFail >>= f) Q () ↔ wp calm (f ()) Q () := by
  rw [maybeFail, wp_bind, wp_perform]
  constructor
  · exact fun h => h.2 (.ok ()) () ⟨rfl, rfl⟩
  · refine fun h => ⟨rfl, ?_⟩
    rintro reply _ ⟨returned, -⟩
    obtain rfl : reply = .ok () := returned
    exact h

theorem extracts_iff_payload (accepts : pydantic.Accepts) :
    Extracts pydantic lower text documentType ↔ ∃ payload,
      fakePayload lower documentType text = .ok payload ∧
      (documentType = .invoice → payload.field? "vendor_name" = some (.str (vendorName text))) := by
  have declared : ("vendor_name", FieldType.nullable .str) ∈ ModelClass.invoiceExtraction.fields :=
    .head _
  unfold Extracts extract
  rw [wp_maybeFail, wp_bind, wp_lift]
  cases made : fakePayload lower documentType text with
  | error error =>
    constructor
    · rintro ⟨output, same, -⟩
      cases same
    · rintro ⟨payload, same, -⟩
      cases same
  | ok payload =>
    obtain ⟨answer, accepted, kept⟩ := accepts _ payload (fakePayload_validates made)
    simp only [accepted]
    constructor
    · rintro ⟨_, ⟨rfl⟩, -, -, names⟩
      refine ⟨payload, rfl, ?_⟩
      rintro rfl
      obtain ⟨vendor, -, named⟩ := fakePayload_invoice made
      rw [named, ← kept _ _ _ declared named]
      exact names rfl
    · rintro ⟨_, ⟨rfl⟩, names⟩
      refine ⟨_, rfl, rfl, answer.validates, ?_⟩
      rintro rfl
      exact kept _ _ _ declared (names rfl)

theorem findAfter_absent (letters : LowersByCharacter lower) (absent : vendorAt text = none) :
    findAfter lower text "vendor:" = .ok none := by
  rw [findAfter, find_vendor letters, absent]
  rfl

theorem findAfter_found (letters : LowersByCharacter lower) {index : Nat}
    (found : vendorAt text = some index) :
    findAfter lower text "vendor:" =
      if movedRest lower text index = [] then .error indexError
      else .ok (if lineAfter (movedRest lower text index) = [] then none
        else some (String.ofList (lineAfter (movedRest lower text index)))) := by
  have length : "vendor:".length = 7 := by decide
  rw [findAfter, find_vendor letters, found, Option.map_some, length]
  simp only [firstLine]
  by_cases ended : movedRest lower text index = []
  · have none_ : text.drop ((lower (text.take index)).length + 7) = [] := ended
    rw [if_pos ended, if_pos none_]
  · have some_ : text.drop ((lower (text.take index)).length + 7) ≠ [] := ended
    rw [if_neg ended, if_neg some_]
    rfl

theorem getD_line (line : Text) :
    (if line = [] then none else some (String.ofList line)).getD "Example Vendor" =
      orPlaceholder line := by
  unfold orPlaceholder
  split <;> rfl

theorem payload_named_iff (name : String) :
    (∃ payload, fakePayload lower .invoice text = .ok payload ∧
      payload.field? "vendor_name" = some (.str name)) ↔
      ∃ vendor, findAfter lower text "vendor:" = .ok vendor ∧
        vendor.getD "Example Vendor" = name := by
  constructor
  · rintro ⟨payload, made, names⟩
    obtain ⟨vendor, found, field⟩ := fakePayload_invoice made
    rw [field, Option.some.injEq, Json.str.injEq] at names
    exact ⟨vendor, found, names⟩
  · rintro ⟨vendor, found, names⟩
    obtain ⟨payload, made⟩ := exists_fakePayload found
    obtain ⟨vendor', found', field⟩ := fakePayload_invoice made
    obtain rfl : vendor = vendor' := Except.ok.inj (found.symm.trans found')
    exact ⟨payload, made, names ▸ field⟩

theorem payload_iff (letters : LowersByCharacter lower) :
    (∃ payload, fakePayload lower .invoice text = .ok payload ∧
      payload.field? "vendor_name" = some (.str (vendorName text))) ↔ MarkerKept lower text := by
  rw [payload_named_iff]
  unfold MarkerKept vendorName
  cases at_ : vendorAt text with
  | none =>
    rw [findAfter_absent letters at_]
    exact ⟨fun _ => nofun, fun _ => ⟨none, rfl, rfl⟩⟩
  | some index =>
    rw [findAfter_found letters at_]
    by_cases ended : movedRest lower text index = []
    · rw [if_pos ended]
      constructor
      · rintro ⟨vendor, returned, -⟩
        cases returned
      · exact fun kept => absurd ended (kept index rfl).1
    · rw [if_neg ended]
      constructor
      · rintro ⟨_, ⟨rfl⟩, names⟩ _ ⟨rfl⟩
        exact ⟨ended, (getD_line _).symm.trans names⟩
      · exact fun kept => ⟨_, rfl, (getD_line _).trans (kept index rfl).2⟩

/-- The fake provider returns a valid extraction with the vendor of the text
exactly when the type is not an invoice or the marker is not disturbed. -/
theorem extracts_iff (accepts : pydantic.Accepts) (letters : LowersByCharacter lower)
    (text : Text) (documentType : DocumentType) :
    Extracts pydantic lower text documentType ↔
      documentType ≠ .invoice ∨ MarkerKept lower text := by
  rw [extracts_iff_payload accepts]
  cases documentType with
  | invoice =>
    simp only [forall_const, ne_eq, not_true_eq_false, false_or]
    exact payload_iff letters
  | resume | supportTicket | generic =>
    constructor
    · exact fun _ => .inl nofun
    · exact fun _ => ⟨_, rfl, nofun⟩

def schemaCheck : Pydantic where
  validate cls
    | .value data => if fits : cls.Validates data then .ok ⟨data, fits⟩ else .error "invalid"
    | .model _ _ => .error "invalid"
  validateJson _ _ := .error "invalid"

theorem schemaCheck_accepts : schemaCheck.Accepts := by
  intro cls data fits
  exact ⟨⟨data, fits⟩, dif_pos fits, fun _ _ _ _ same => same⟩

/-- Lower-casing of ASCII and of U+0130, which becomes two characters. -/
def lowerDotted (text : Text) : Text :=
  (text.map fun c => if c = 'İ' then ['i', Char.ofNat 0x307] else [c.toLower]).flatten

theorem lowerDotted_letters : LowersByCharacter lowerDotted := by
  refine ⟨fun c => if c = 'İ' then 2 else 1, fun text => ⟨_, rfl, ?_⟩⟩
  rw [List.forall₂_map_right_iff, List.forall₂_same]
  intro c _
  by_cases dotted : c = 'İ'
  · obtain rfl := dotted
    exact ⟨by decide, by decide, by decide, fun _ => List.all_iff_forall_prop.mp (by decide)⟩
  · rw [if_neg dotted]
    refine ⟨(if_neg dotted).symm, nofun, fun _ => rfl, ?_⟩
    intro outside d among small
    rw [List.mem_singleton, toLower_outside outside] at among
    obtain rfl := among
    omega

theorem extracts_acme : Extracts schemaCheck lowerDotted "INVOICE\nVendor: Acme\n".toList .invoice := by
  refine (extracts_iff schemaCheck_accepts lowerDotted_letters _ _).mpr (.inr ?_)
  intro index found
  obtain rfl : 8 = index := Option.some.inj ((by decide : vendorAt _ = some 8).symm.trans found)
  decide

/-- Nothing follows the marker. -/
theorem endingInMarker_raises : ¬Extracts schemaCheck lowerDotted "Vendor:".toList .invoice := by
  intro returned
  obtain ⟨payload, made, names⟩ := (extracts_iff_payload schemaCheck_accepts).mp returned
  have kept := (payload_iff lowerDotted_letters).mp ⟨payload, made, names rfl⟩
  exact (kept 0 (by decide)).1 (by decide)

example : ¬MarkerKept lowerDotted "İ, Vendor:Acme".toList :=
  fun kept => absurd (kept 3 (by decide)).2 (by decide)

end FakeProvider
end DocumentPipeline
