import Dbn.Lib.Utf8

/-!
# JSON texts

The grammar of JSON over the bytes of a text, and documents as the calls of a
JSON writer.  A writer is free in its whitespace and in its escapes, but raw
fragments go into the text as they are.  A scanner that only looks at strings
refuses a text with a wrong escape, which makes it no JSON text.
-/

namespace Dbn
namespace Lib
namespace Json

abbrev Text := List UInt8

/-!
## Grammar
-/

def IsWs (t : Text) : Prop :=
  forall b, b ∈ t -> b ∈ ([0x20, 0x09, 0x0A, 0x0D] : Text)

def IsDigit (b : UInt8) : Prop :=
  0x30 ≤ b ∧ b ≤ 0x39

def IsHexDigit (b : UInt8) : Prop :=
  IsDigit b ∨ 0x41 ≤ b ∧ b ≤ 0x46 ∨ 0x61 ≤ b ∧ b ≤ 0x66

instance (b : UInt8) : Decidable (IsDigit b) :=
  inferInstanceAs (Decidable (_ ∧ _))

instance (b : UInt8) : Decidable (IsHexDigit b) :=
  inferInstanceAs (Decidable (_ ∨ _))

/-- What may stand after a backslash, besides `u`. -/
def escapes : Text := [0x22, 0x5C, 0x2F, 0x62, 0x66, 0x6E, 0x72, 0x74]

/-- The characters of a string. -/
inductive IsBody : Text -> Prop where
  | nil : IsBody []
  | plain {b : UInt8} {t : Text} (control : 0x20 ≤ b) (quote : b ≠ 0x22)
      (backslash : b ≠ 0x5C) (rest : IsBody t) : IsBody (b :: t)
  | escaped {b : UInt8} {t : Text} (escape : b ∈ escapes)
      (rest : IsBody t) : IsBody (0x5C :: b :: t)
  | unicode {a b c d : UInt8} {t : Text} (ha : IsHexDigit a)
      (hb : IsHexDigit b) (hc : IsHexDigit c) (hd : IsHexDigit d)
      (rest : IsBody t) : IsBody (0x5C :: 0x75 :: a :: b :: c :: d :: t)

def quoted (body : Text) : Text :=
  [0x22] ++ body ++ [0x22]

def IsString (t : Text) : Prop :=
  exists body, IsBody body ∧ t = quoted body

def IsDigits (t : Text) : Prop :=
  t ≠ [] ∧ forall b, b ∈ t -> IsDigit b

/-- Digits without a leading zero. -/
def IsInt (t : Text) : Prop :=
  IsDigits t ∧ (t.length = 1 ∨ t.head? ≠ some 0x30)

def IsFraction (t : Text) : Prop :=
  t = [] ∨ exists digits, IsDigits digits ∧ t = 0x2E :: digits

def IsExponent (t : Text) : Prop :=
  t = [] ∨ exists e sign digits, e ∈ ([0x65, 0x45] : Text) ∧
    sign ∈ ([[], [0x2B], [0x2D]] : List Text) ∧ IsDigits digits ∧
    t = e :: sign ++ digits

def IsNumber (t : Text) : Prop :=
  exists sign int fraction exponent, sign ∈ ([[], [0x2D]] : List Text) ∧
    IsInt int ∧ IsFraction fraction ∧ IsExponent exponent ∧
    t = sign ++ int ++ fraction ++ exponent

/-- A member of an object with the text of its value. -/
def IsMember (value t : Text) : Prop :=
  exists w₁ key w₂ w₃ w₄, IsWs w₁ ∧ IsString key ∧ IsWs w₂ ∧ IsWs w₃ ∧
    IsWs w₄ ∧ t = (w₁ ++ key ++ w₂ ++ [0x3A] ++ w₃) ++ value ++ w₄

/-- An item of an array with the text of its value. -/
def IsItem (value t : Text) : Prop :=
  exists w₁ w₂, IsWs w₁ ∧ IsWs w₂ ∧ t = w₁ ++ value ++ w₂

inductive Kind where
  | value | object | members | items

/-- The texts of each kind. -/
inductive Valid : Kind -> Text -> Prop where
  | null : Valid .value (asciiBytes "null")
  | true : Valid .value (asciiBytes "true")
  | false : Valid .value (asciiBytes "false")
  | number {t : Text} (h : IsNumber t) : Valid .value t
  | string {t : Text} (h : IsString t) : Valid .value t
  | objectValue {t : Text} (h : Valid .object t) : Valid .value t
  | emptyObject {w : Text} (hw : IsWs w) :
      Valid .object ([0x7B] ++ w ++ [0x7D])
  | object {t : Text} (h : Valid .members t) :
      Valid .object ([0x7B] ++ t ++ [0x7D])
  | lastMember {v t : Text} (h : Valid .value v) (member : IsMember v t) :
      Valid .members t
  | member {v t t' : Text} (h : Valid .value v) (member : IsMember v t)
      (rest : Valid .members t') : Valid .members (t ++ [0x2C] ++ t')
  | emptyArray {w : Text} (hw : IsWs w) :
      Valid .value ([0x5B] ++ w ++ [0x5D])
  | array {t : Text} (h : Valid .items t) :
      Valid .value ([0x5B] ++ t ++ [0x5D])
  | lastItem {v t : Text} (h : Valid .value v) (item : IsItem v t) :
      Valid .items t
  | item {v t t' : Text} (h : Valid .value v) (item : IsItem v t)
      (rest : Valid .items t') : Valid .items (t ++ [0x2C] ++ t')

/-!
## Documents
-/

mutual

/-- The calls that write a value. -/
inductive Doc where
  | null
  | string (s : Text)
  | integer (n : Int)
  | raw (fragments : List Text)
  | object (members : Members)
  | array (items : Items)

inductive Members where
  | nil
  | cons (key : String) (value : Doc) (rest : Members)

inductive Items where
  | nil
  | cons (value : Doc) (rest : Items)

end

def Members.ofList : List (String × Doc) -> Members
  | [] => .nil
  | (key, value) :: rest => .cons key value (ofList rest)

def Items.ofList : List Doc -> Items
  | [] => .nil
  | value :: rest => .cons value (ofList rest)

/-- The parts of a document. -/
inductive Part where
  | value (doc : Doc)
  | members (members : Members)
  | items (items : Items)

/-- The texts that a writer may write for a part. -/
inductive Rendered : Part -> Text -> Prop where
  | null : Rendered (.value .null) (asciiBytes "null")
  | string {s t : Text} (h : IsString t) : Rendered (.value (.string s)) t
  | integer {n : Int} {t : Text} (h : IsNumber t) :
      Rendered (.value (.integer n)) t
  | raw {fragments : List Text} :
      Rendered (.value (.raw fragments)) fragments.flatten
  | emptyObject {w : Text} (hw : IsWs w) :
      Rendered (.value (.object .nil)) ([0x7B] ++ w ++ [0x7D])
  | object {key : String} {value : Doc} {rest : Members} {t : Text}
      (h : Rendered (.members (.cons key value rest)) t) :
      Rendered (.value (.object (.cons key value rest)))
        ([0x7B] ++ t ++ [0x7D])
  | lastMember {key : String} {value : Doc} {v t : Text}
      (h : Rendered (.value value) v) (member : IsMember v t) :
      Rendered (.members (.cons key value .nil)) t
  | member {key key' : String} {value value' : Doc} {rest : Members}
      {v t t' : Text} (h : Rendered (.value value) v) (member : IsMember v t)
      (hrest : Rendered (.members (.cons key' value' rest)) t') :
      Rendered (.members (.cons key value (.cons key' value' rest)))
        (t ++ [0x2C] ++ t')
  | emptyArray {w : Text} (hw : IsWs w) :
      Rendered (.value (.array .nil)) ([0x5B] ++ w ++ [0x5D])
  | array {value : Doc} {rest : Items} {t : Text}
      (h : Rendered (.items (.cons value rest)) t) :
      Rendered (.value (.array (.cons value rest))) ([0x5B] ++ t ++ [0x5D])
  | lastItem {value : Doc} {v t : Text} (h : Rendered (.value value) v)
      (item : IsItem v t) : Rendered (.items (.cons value .nil)) t
  | item {value value' : Doc} {rest : Items} {v t t' : Text}
      (h : Rendered (.value value) v) (item : IsItem v t)
      (hrest : Rendered (.items (.cons value' rest)) t') :
      Rendered (.items (.cons value (.cons value' rest)))
        (t ++ [0x2C] ++ t')

/-- The raw texts in a part. -/
inductive HasRaw : Part -> Text -> Prop where
  | raw {fragments : List Text} :
      HasRaw (.value (.raw fragments)) fragments.flatten
  | object {members : Members} {r : Text} (h : HasRaw (.members members) r) :
      HasRaw (.value (.object members)) r
  | array {items : Items} {r : Text} (h : HasRaw (.items items) r) :
      HasRaw (.value (.array items)) r
  | member {key : String} {value : Doc} {rest : Members} {r : Text}
      (h : HasRaw (.value value) r) :
      HasRaw (.members (.cons key value rest)) r
  | laterMember {key : String} {value : Doc} {rest : Members} {r : Text}
      (h : HasRaw (.members rest) r) :
      HasRaw (.members (.cons key value rest)) r
  | item {value : Doc} {rest : Items} {r : Text}
      (h : HasRaw (.value value) r) : HasRaw (.items (.cons value rest)) r
  | laterItem {value : Doc} {rest : Items} {r : Text}
      (h : HasRaw (.items rest) r) : HasRaw (.items (.cons value rest)) r

theorem hasRaw_members_ofList {members : List (String × Doc)} {r : Text} :
    HasRaw (.members (Members.ofList members)) r <->
      exists member, member ∈ members ∧ HasRaw (.value member.2) r := by
  induction members with
  | nil =>
      constructor
      · intro h
        cases h
      · intro h
        rcases h with ⟨member, hmember, _⟩
        cases hmember
  | cons member rest ih =>
      rcases member with ⟨key, value⟩
      constructor
      · intro h
        cases h with
        | member h => exact ⟨_, List.mem_cons_self, h⟩
        | laterMember h =>
            rcases ih.mp h with ⟨member, hmember, hr⟩
            exact ⟨member, List.mem_cons_of_mem _ hmember, hr⟩
      · intro h
        rcases h with ⟨member, hmember, hr⟩
        cases List.mem_cons.mp hmember with
        | inl heq =>
            rw [heq] at hr
            exact HasRaw.member hr
        | inr hrest => exact HasRaw.laterMember (ih.mpr ⟨_, hrest, hr⟩)

theorem hasRaw_items_ofList {items : List Doc} {r : Text} :
    HasRaw (.items (Items.ofList items)) r <->
      exists item, item ∈ items ∧ HasRaw (.value item) r := by
  induction items with
  | nil =>
      constructor
      · intro h
        cases h
      · intro h
        rcases h with ⟨item, hitem, _⟩
        cases hitem
  | cons item rest ih =>
      constructor
      · intro h
        cases h with
        | item h => exact ⟨_, List.mem_cons_self, h⟩
        | laterItem h =>
            rcases ih.mp h with ⟨item, hitem, hr⟩
            exact ⟨item, List.mem_cons_of_mem _ hitem, hr⟩
      · intro h
        rcases h with ⟨item, hitem, hr⟩
        cases List.mem_cons.mp hitem with
        | inl heq =>
            rw [heq] at hr
            exact HasRaw.item hr
        | inr hrest => exact HasRaw.laterItem (ih.mpr ⟨_, hrest, hr⟩)

/-!
## Documents with raw strings are JSON
-/

def Part.kind : Part -> Kind
  | .value _ => .value
  | .members _ => .members
  | .items _ => .items

theorem valid_of_rendered {part : Part} {t : Text} (h : Rendered part t)
    (hraw : forall r, HasRaw part r -> IsString r) :
    Valid part.kind t := by
  induction h with
  | null => exact Valid.null
  | string h => exact Valid.string h
  | integer h => exact Valid.number h
  | raw => exact Valid.string (hraw _ HasRaw.raw)
  | emptyObject hw => exact Valid.objectValue (Valid.emptyObject hw)
  | object h ih =>
      apply Valid.objectValue
      apply Valid.object
      exact ih (fun r hr => hraw r (HasRaw.object hr))
  | lastMember h member ih =>
      exact Valid.lastMember (ih (fun r hr => hraw r (HasRaw.member hr)))
        member
  | member h member hrest ih ihrest =>
      exact Valid.member (ih (fun r hr => hraw r (HasRaw.member hr))) member
        (ihrest (fun r hr => hraw r (HasRaw.laterMember hr)))
  | emptyArray hw => exact Valid.emptyArray hw
  | array h ih =>
      apply Valid.array
      exact ih (fun r hr => hraw r (HasRaw.array hr))
  | lastItem h item ih =>
      exact Valid.lastItem (ih (fun r hr => hraw r (HasRaw.item hr))) item
  | item h item hrest ih ihrest =>
      exact Valid.item (ih (fun r hr => hraw r (HasRaw.item hr))) item
        (ihrest (fun r hr => hraw r (HasRaw.laterItem hr)))

theorem valid_object_of_rendered {members : Members} {t : Text}
    (h : Rendered (.value (.object members)) t)
    (hraw : forall r, HasRaw (.members members) r -> IsString r) :
    Valid .object t := by
  cases h with
  | emptyObject hw => exact Valid.emptyObject hw
  | object h => exact Valid.object (valid_of_rendered h hraw)

/-!
## The scanner of strings
-/

inductive Scan where
  | outside
  | inside
  | escape
  /-- After `u`, with digits that are left besides the next one. -/
  | hex (left : Nat)
  | refused
deriving DecidableEq, Repr

namespace Scan

def step : Scan -> UInt8 -> Scan
  | outside, b => if b = 0x22 then inside else outside
  | inside, b =>
      if b = 0x22 then outside
      else if b = 0x5C then escape
      else if 0x20 ≤ b then inside
      else refused
  | escape, b =>
      if b ∈ escapes then inside
      else if b = 0x75 then hex 3
      else refused
  | hex left, b =>
      if IsHexDigit b then
        match left with
        | 0 => inside
        | left + 1 => hex left
      else refused
  | refused, _ => refused

def run (start : Scan) (t : Text) : Scan :=
  t.foldl step start

theorem run_append (start : Scan) (t t' : Text) :
    run start (t ++ t') = run (run start t) t' :=
  List.foldl_append

theorem run_refused (t : Text) : run refused t = refused := by
  induction t with
  | nil => rfl
  | cons b rest ih => exact ih

theorem run_inside_of_isBody {t : Text} (h : IsBody t) :
    run inside t = inside := by
  induction h with
  | nil => rfl
  | plain control quote backslash rest ih =>
      show run (step inside _) _ = _
      unfold step
      dsimp only
      rw [if_neg quote, if_neg backslash, if_pos control]
      exact ih
  | escaped escape rest ih =>
      show run (step (step inside 0x5C) _) _ = _
      have hstep : step inside 0x5C = Scan.escape := rfl
      rw [hstep]
      unfold step
      dsimp only
      rw [if_pos escape]
      exact ih
  | unicode ha hb hc hd rest ih =>
      show run (step (step (step (step (step (step inside 0x5C) 0x75) _) _)
        _) _) _ = _
      have hstep : step (step inside 0x5C) 0x75 = hex 3 := by decide
      rw [hstep]
      simp only [step, if_pos ha, if_pos hb, if_pos hc, if_pos hd]
      exact ih

/-- Text that the scanner leaves as it found it. -/
def Neutral (t : Text) : Prop :=
  run outside t = outside

theorem Neutral.append {t t' : Text} (h : Neutral t) (h' : Neutral t') :
    Neutral (t ++ t') := by
  unfold Neutral at h h' ⊢
  rw [run_append, h, h']

theorem neutral_of_no_quote {t : Text} (h : forall b, b ∈ t -> b ≠ 0x22) :
    Neutral t := by
  induction t with
  | nil => rfl
  | cons b rest ih =>
      show run (step outside b) rest = outside
      unfold step
      dsimp only
      rw [if_neg (h b List.mem_cons_self)]
      exact ih (fun c hc => h c (List.mem_cons_of_mem b hc))

theorem neutral_of_isWs {t : Text} (h : IsWs t) : Neutral t := by
  apply neutral_of_no_quote
  intro b hb heq
  have hws := h b hb
  rw [heq] at hws
  exact absurd hws (by decide)

theorem neutral_of_isString {t : Text} (h : IsString t) : Neutral t := by
  rcases h with ⟨body, hbody, rfl⟩
  unfold Neutral quoted
  have hopen : run outside [0x22] = inside := rfl
  rw [run_append, run_append, hopen, run_inside_of_isBody hbody]
  rfl

theorem not_quote_of_isDigit {b : UInt8} (h : IsDigit b) : b ≠ 0x22 := by
  intro heq
  rw [heq] at h
  exact absurd h (by decide)

theorem neutral_of_isDigits {t : Text} (h : IsDigits t) : Neutral t :=
  neutral_of_no_quote (fun b hb => not_quote_of_isDigit (h.2 b hb))

theorem neutral_of_isNumber {t : Text} (h : IsNumber t) : Neutral t := by
  rcases h with ⟨sign, int, fraction, exponent, hsign, hint, hfraction,
    hexponent, rfl⟩
  apply Neutral.append (Neutral.append (Neutral.append _ _) _) _
  · apply neutral_of_no_quote
    intro b hb heq
    rw [heq] at hb
    simp only [List.mem_cons, List.not_mem_nil, or_false] at hsign
    rcases hsign with rfl | rfl <;> exact absurd hb (by decide)
  · exact neutral_of_isDigits hint.1
  · rcases hfraction with rfl | ⟨digits, hdigits, rfl⟩
    · rfl
    · have hpoint : Neutral [0x2E] := rfl
      exact hpoint.append (neutral_of_isDigits hdigits)
  · rcases hexponent with rfl | ⟨e, sign, digits, he, hsign, hdigits, rfl⟩
    · rfl
    · have hstart : Neutral (e :: sign) := by
        simp only [List.mem_cons, List.not_mem_nil, or_false] at he hsign
        rcases he with rfl | rfl <;> rcases hsign with rfl | rfl | rfl <;> rfl
      exact hstart.append (neutral_of_isDigits hdigits)

/-!
### Valid and rendered texts
-/

theorem neutral_comma : Neutral [0x2C] := rfl
theorem neutral_openBrace : Neutral [0x7B] := rfl
theorem neutral_closeBrace : Neutral [0x7D] := rfl
theorem neutral_openBracket : Neutral [0x5B] := rfl
theorem neutral_closeBracket : Neutral [0x5D] := rfl

/-- A text between two that the scanner leaves as it found them. -/
theorem run_between {before after : Text} (hbefore : Neutral before)
    (hafter : Neutral after) {t : Text} :
    (Neutral t -> Neutral (before ++ t ++ after)) ∧
      (run outside t = refused ->
        run outside (before ++ t ++ after) = refused) := by
  unfold Neutral at hbefore hafter ⊢
  constructor
  · intro h
    rw [run_append, run_append, hbefore, h, hafter]
  · intro h
    rw [run_append, run_append, hbefore, h, run_refused]

theorem IsMember.between {v t : Text} (h : IsMember v t) :
    exists before after, Neutral before ∧ Neutral after ∧
      t = before ++ v ++ after := by
  rcases h with ⟨w₁, key, w₂, w₃, w₄, h₁, hkey, h₂, h₃, h₄, rfl⟩
  have hcolon : Neutral [0x3A] := rfl
  have hbefore : Neutral (w₁ ++ key ++ w₂ ++ [0x3A] ++ w₃) :=
    ((((neutral_of_isWs h₁).append (neutral_of_isString hkey)).append
      (neutral_of_isWs h₂)).append hcolon).append (neutral_of_isWs h₃)
  exact ⟨_, w₄, hbefore, neutral_of_isWs h₄, rfl⟩

theorem IsItem.between {v t : Text} (h : IsItem v t) :
    exists before after, Neutral before ∧ Neutral after ∧
      t = before ++ v ++ after := by
  rcases h with ⟨w₁, w₂, h₁, h₂, rfl⟩
  exact ⟨w₁, w₂, neutral_of_isWs h₁, neutral_of_isWs h₂, rfl⟩

theorem neutral_of_valid {kind : Kind} {t : Text} (h : Valid kind t) :
    Neutral t := by
  induction h with
  | null => rfl
  | true => rfl
  | false => rfl
  | number h => exact neutral_of_isNumber h
  | string h => exact neutral_of_isString h
  | objectValue h ih => exact ih
  | emptyObject hw =>
      exact (neutral_openBrace.append (neutral_of_isWs hw)).append
        neutral_closeBrace
  | object h ih =>
      exact (neutral_openBrace.append ih).append neutral_closeBrace
  | lastMember h member ih =>
      rcases IsMember.between member with ⟨before, after, hb, ha, rfl⟩
      exact (run_between hb ha).1 ih
  | member h member rest ih ihrest =>
      rcases IsMember.between member with ⟨before, after, hb, ha, rfl⟩
      exact (((run_between hb ha).1 ih).append neutral_comma).append ihrest
  | emptyArray hw =>
      exact (neutral_openBracket.append (neutral_of_isWs hw)).append
        neutral_closeBracket
  | array h ih =>
      exact (neutral_openBracket.append ih).append neutral_closeBracket
  | lastItem h item ih =>
      rcases IsItem.between item with ⟨before, after, hb, ha, rfl⟩
      exact (run_between hb ha).1 ih
  | item h item rest ih ihrest =>
      rcases IsItem.between item with ⟨before, after, hb, ha, rfl⟩
      exact (((run_between hb ha).1 ih).append neutral_comma).append ihrest

/-- A text is refused, or none of the raw texts in it is. -/
def Settled (part : Part) (t : Text) : Prop :=
  run outside t = refused ∨
    Neutral t ∧ forall r, HasRaw part r -> run outside r ≠ refused

theorem Settled.between {part part' : Part} {before after t : Text}
    (h : Settled part t) (hbefore : Neutral before) (hafter : Neutral after)
    (hraw : forall r, HasRaw part' r -> HasRaw part r) :
    Settled part' (before ++ t ++ after) := by
  rcases h with hrefused | ⟨hneutral, hnot⟩
  · exact Or.inl ((run_between hbefore hafter).2 hrefused)
  · exact Or.inr ⟨(run_between hbefore hafter).1 hneutral,
      fun r hr => hnot r (hraw r hr)⟩

/-- Two parts with a comma between them. -/
theorem Settled.comma {part part' whole : Part} {t t' : Text}
    (h : Settled part t) (h' : Settled part' t')
    (hraw : forall r, HasRaw whole r -> HasRaw part r ∨ HasRaw part' r) :
    Settled whole (t ++ [0x2C] ++ t') := by
  rcases h with hrefused | ⟨hneutral, hnot⟩
  · apply Or.inl
    rw [run_append, run_append, hrefused, run_refused, run_refused]
  rcases h' with hrefused' | ⟨hneutral', hnot'⟩
  · apply Or.inl
    have hstart : run outside (t ++ [0x2C]) = outside :=
      hneutral.append neutral_comma
    rw [run_append, hstart, hrefused']
  · apply Or.inr
    constructor
    · exact (hneutral.append neutral_comma).append hneutral'
    · intro r hr
      cases hraw r hr with
      | inl hpart => exact hnot r hpart
      | inr hpart' => exact hnot' r hpart'

theorem settled_of_neutral {part : Part} {t : Text} (h : Neutral t)
    (hnone : forall r, ¬ HasRaw part r) : Settled part t :=
  Or.inr ⟨h, fun r hr => absurd hr (hnone r)⟩

theorem settled_of_rendered {part : Part} {t : Text} (h : Rendered part t)
    (hraw : forall r, HasRaw part r ->
      Neutral r ∨ run outside r = refused) : Settled part t := by
  induction h with
  | null => exact settled_of_neutral rfl (fun r hr => by cases hr)
  | string h =>
      exact settled_of_neutral (neutral_of_isString h)
        (fun r hr => by cases hr)
  | integer h =>
      exact settled_of_neutral (neutral_of_isNumber h)
        (fun r hr => by cases hr)
  | raw =>
      cases hraw _ HasRaw.raw with
      | inr hrefused => exact Or.inl hrefused
      | inl hneutral =>
          apply Or.inr
          constructor
          · exact hneutral
          · intro r hr
            cases hr
            rw [hneutral]
            simp
  | emptyObject hw =>
      apply settled_of_neutral
        (neutral_of_valid (Valid.emptyObject hw))
      intro r hr
      cases hr with
      | object h => cases h
  | object h ih =>
      apply (ih (fun r hr => hraw r (HasRaw.object hr))).between
        neutral_openBrace neutral_closeBrace
      intro r hr
      cases hr with
      | object h => exact h
  | lastMember h member ih =>
      rcases IsMember.between member with ⟨before, after, hb, ha, rfl⟩
      apply (ih (fun r hr => hraw r (HasRaw.member hr))).between hb ha
      intro r hr
      cases hr with
      | member h => exact h
      | laterMember h => cases h
  | @member key key' value value' rest v t t' h member hrest ih ihrest =>
      rcases IsMember.between member with ⟨before, after, hb, ha, rfl⟩
      have hfirst : Settled (.value value) (before ++ v ++ after) :=
        (ih (fun r hr => hraw r (HasRaw.member hr))).between hb ha
          (fun r hr => hr)
      apply hfirst.comma
        (ihrest (fun r hr => hraw r (HasRaw.laterMember hr)))
      intro r hr
      cases hr with
      | member h => exact Or.inl h
      | laterMember h => exact Or.inr h
  | emptyArray hw =>
      apply settled_of_neutral (neutral_of_valid (Valid.emptyArray hw))
      intro r hr
      cases hr with
      | array h => cases h
  | array h ih =>
      apply (ih (fun r hr => hraw r (HasRaw.array hr))).between
        neutral_openBracket neutral_closeBracket
      intro r hr
      cases hr with
      | array h => exact h
  | lastItem h item ih =>
      rcases IsItem.between item with ⟨before, after, hb, ha, rfl⟩
      apply (ih (fun r hr => hraw r (HasRaw.item hr))).between hb ha
      intro r hr
      cases hr with
      | item h => exact h
      | laterItem h => cases h
  | @item value value' rest v t t' h item hrest ih ihrest =>
      rcases IsItem.between item with ⟨before, after, hb, ha, rfl⟩
      have hfirst : Settled (.value value) (before ++ v ++ after) :=
        (ih (fun r hr => hraw r (HasRaw.item hr))).between hb ha
          (fun r hr => hr)
      apply hfirst.comma (ihrest (fun r hr => hraw r (HasRaw.laterItem hr)))
      intro r hr
      cases hr with
      | item h => exact Or.inl h
      | laterItem h => exact Or.inr h

end Scan

/--
When each raw text is a string or refused by the scanner, a document is an
object exactly when all of them are strings.
-/
theorem valid_object_iff {members : Members} {t : Text}
    (h : Rendered (.value (.object members)) t)
    (hraw : forall r, HasRaw (.members members) r ->
      IsString r ∨ Scan.run .outside r = .refused) :
    Valid .object t <-> forall r, HasRaw (.members members) r ->
      IsString r := by
  constructor
  · intro hvalid r hr
    have hsettled : Scan.Settled (.value (.object members)) t := by
      apply Scan.settled_of_rendered h
      intro r hr
      cases hr with
      | object hr =>
          cases hraw r hr with
          | inl hstring => exact Or.inl (Scan.neutral_of_isString hstring)
          | inr hrefused => exact Or.inr hrefused
    have hneutral := Scan.neutral_of_valid hvalid
    rcases hsettled with hrefused | ⟨_, hnot⟩
    · rw [hneutral] at hrefused
      cases hrefused
    · cases hraw r hr with
      | inl hstring => exact hstring
      | inr hrefused => exact absurd hrefused (hnot r (HasRaw.object hr))
  · intro hstring
    exact valid_object_of_rendered h hstring

end Json
end Lib
end Dbn
