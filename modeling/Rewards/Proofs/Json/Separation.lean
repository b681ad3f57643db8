/-
Canonical texts determine their values, also where they stand in a longer text.

Inside an array or an object a text is followed by a comma or a closing bracket, and
then by whatever comes next.  A text of a value ends by itself, because its brackets and
quotes are closed, except for a number, which ends where what follows cannot stand in a
number.  So two texts that start at the same place and are each followed by such a
character are of the same value and end together (`same_of_append`).  Within strings it is
the escapes that keep a quote from ending them: reading an escaped character gives it back.

Of the texts of numbers nothing is used but that they are there and consist of digits,
signs, points and exponent marks.
-/
import Rewards.Json.Reading
import Rewards.Proofs.Json.Same

namespace Rewards.Json

/-! ### Strings -/

/-- The first character of a string's inside, and the text after it. -/
def readChar? : List Char → Option (Char × List Char)
  | '\\' :: rest => escaped? rest
  | c :: rest => some (c, rest)
  | [] => none

theorem readChar?_cons {c : Char} (h : c ≠ '\\') (rest : List Char) :
    readChar? (c :: rest) = some (c, rest) := by
  rw [readChar?]
  exact h

theorem readChar?_control {n : Nat} (h : n < 32) (rest : List Char) :
    readChar? ('\\' :: 'u' :: '0' :: '0' ::
      Nat.digitChar (n / 16) :: Nat.digitChar (n % 16) :: rest) = some (Char.ofNat n, rest) := by
  interval_cases n <;> rfl

/-- **An escaped character is read back.** -/
theorem readChar?_escape (c : Char) (rest : List Char) :
    readChar? (escape c ++ rest) = some (c, rest) := by
  unfold escape
  split_ifs with hquote hslash hback hfeed hline hreturn htab hcontrol
  · subst hquote; rfl
  · subst hslash; rfl
  · subst hback; rfl
  · subst hfeed; rfl
  · subst hline; rfl
  · subst hreturn; rfl
  · subst htab; rfl
  · have hread := readChar?_control hcontrol rest
    rw [Char.ofNat_toNat] at hread
    exact hread
  · exact readChar?_cons hslash rest

theorem escape_append_ne_quote (c : Char) (rest more : List Char) :
    escape c ++ rest ≠ '"' :: more := by
  intro h
  have hread := readChar?_escape c rest
  rw [h, readChar?_cons (by decide)] at hread
  obtain rfl : '"' = c := (Prod.mk.inj (Option.some.inj hread)).1
  exact absurd (List.cons.inj h).1 (by decide)

/-- The insides of strings that start at the same place are the same up to the quote. -/
theorem escaped_inj : ∀ {cs ds r s : List Char},
    cs.flatMap escape ++ '"' :: r = ds.flatMap escape ++ '"' :: s → cs = ds ∧ r = s := by
  intro cs
  induction cs with
  | nil =>
      intro ds r s h
      cases ds with
      | nil => exact ⟨rfl, (List.cons.inj h).2⟩
      | cons d more =>
          rw [List.flatMap_cons, List.append_assoc] at h
          exact absurd h.symm (escape_append_ne_quote _ _ _)
  | cons c rest ih =>
      intro ds r s h
      rw [List.flatMap_cons, List.append_assoc] at h
      cases ds with
      | nil => exact absurd h (escape_append_ne_quote _ _ _)
      | cons d more =>
          rw [List.flatMap_cons, List.append_assoc] at h
          have hread := readChar?_escape c (rest.flatMap escape ++ '"' :: r)
          rw [h, readChar?_escape] at hread
          obtain ⟨rfl, hrest⟩ := Prod.mk.inj (Option.some.inj hread)
          obtain ⟨rfl, hrs⟩ := ih hrest.symm
          exact ⟨rfl, hrs⟩

/-- **A string in quotes ends at its closing quote.** -/
theorem quoted_inj {s t : String} {r r' : List Char} (h : quoted s ++ r = quoted t ++ r') :
    s = t ∧ r = r' := by
  simp only [quoted, List.cons_append, List.append_assoc, List.nil_append, List.cons.injEq,
    true_and] at h
  obtain ⟨hchars, hrest⟩ := escaped_inj h
  exact ⟨String.toList_inj.mp hchars, hrest⟩

/-! ### Texts between commas -/

/-- What stands after a value: nothing, a comma or a closing bracket. -/
def Ended (rest : List Char) : Prop :=
  ∀ c ∈ rest.head?, c = ',' ∨ c = ']' ∨ c = '\x7d'

/-- A text starts like a value or a member, and so is neither nothing nor the end of one. -/
def Opens (t : List Char) : Prop :=
  ∃ c rest, t = c :: rest ∧ c ≠ ',' ∧ c ≠ ']' ∧ c ≠ '\x7d'

/-- Two texts are the same if they start at the same place and both are ended. -/
def Separated (t u : List Char) : Prop :=
  ∀ {r s : List Char}, Ended r → Ended s → t ++ r = u ++ s → t = u ∧ r = s

theorem ended_nil : Ended [] := fun c hc => by simp at hc

theorem ended_cons {c : Char} (h : c = ',' ∨ c = ']' ∨ c = '\x7d') (rest : List Char) :
    Ended (c :: rest) := by
  intro d hd
  obtain rfl : c = d := by simpa using hd
  exact h

/-- The texts after the first one, with the comma before them if there are any. -/
def furtherTexts : List (List Char) → List Char
  | [] => []
  | t :: rest => ',' :: commaSeparated (t :: rest)

theorem commaSeparated_cons (t : List Char) (rest : List (List Char)) :
    commaSeparated (t :: rest) = t ++ furtherTexts rest := by
  cases rest with
  | nil => rw [commaSeparated, furtherTexts, List.append_nil]
  | cons u more => rfl

theorem ended_furtherTexts {close : Char} (hclose : close = ']' ∨ close = '\x7d')
    (ts : List (List Char)) (r : List Char) : Ended (furtherTexts ts ++ close :: r) := by
  cases ts with
  | nil => exact ended_cons (Or.inr hclose) _
  | cons t rest => exact ended_cons (Or.inl rfl) _

theorem Opens.append_ne_close {t : List Char} (h : Opens t) {close : Char}
    (hclose : close = ']' ∨ close = '\x7d') (rest more : List Char) : t ++ rest ≠ close :: more := by
  obtain ⟨c, tail, rfl, -, hbracket, hbrace⟩ := h
  intro heq
  obtain rfl : c = close := (List.cons.inj heq).1
  exact hclose.elim hbracket hbrace

/--
**Between commas each text is found again.**  The texts of both lists start like values or
members and can be told apart one by one; the induction takes off the first of each.
-/
theorem commaSeparated_inj {close : Char} (hclose : close = ']' ∨ close = '\x7d') :
    ∀ {ts us : List (List Char)}, (∀ t ∈ ts, Opens t) → (∀ u ∈ us, Opens u) →
      (∀ t ∈ ts, ∀ u ∈ us, Separated t u) → ∀ {r s : List Char},
        commaSeparated ts ++ close :: r = commaSeparated us ++ close :: s → ts = us ∧ r = s := by
  intro ts
  induction ts with
  | nil =>
      intro us _ hus _ r s h
      cases us with
      | nil => exact ⟨rfl, (List.cons.inj h).2⟩
      | cons u more =>
          rw [commaSeparated_cons, List.append_assoc] at h
          exact absurd h.symm ((hus u (by simp)).append_ne_close hclose _ _)
  | cons t rest ih =>
      intro us hts hus hsep r s h
      rw [commaSeparated_cons, List.append_assoc] at h
      cases us with
      | nil => exact absurd h ((hts t (by simp)).append_ne_close hclose _ _)
      | cons u more =>
          rw [commaSeparated_cons, List.append_assoc] at h
          obtain ⟨rfl, hfurther⟩ := hsep t (by simp) u (by simp)
            (ended_furtherTexts hclose rest r) (ended_furtherTexts hclose more s) h
          have hrest := fun t ht => hts t (List.mem_cons_of_mem _ ht)
          have hmore := fun u hu => hus u (List.mem_cons_of_mem _ hu)
          have hnext : ∀ t ∈ rest, ∀ u ∈ more, Separated t u := fun t ht u hu =>
            hsep t (List.mem_cons_of_mem _ ht) u (List.mem_cons_of_mem _ hu)
          have hcomma : ',' ≠ close := by rcases hclose with rfl | rfl <;> decide
          cases rest with
          | nil =>
              cases more with
              | nil => exact ⟨rfl, (List.cons.inj hfurther).2⟩
              | cons u' more' => exact absurd (List.cons.inj hfurther).1.symm hcomma
          | cons t' rest' =>
              cases more with
              | nil => exact absurd (List.cons.inj hfurther).1 hcomma
              | cons u' more' =>
                  obtain ⟨heq, hrs⟩ := ih hrest hmore hnext (List.cons.inj hfurther).2
                  exact ⟨by rw [heq], hrs⟩

/-! ### Members -/

theorem memberChars_append (m : String × List Char) (r : List Char) :
    memberChars m ++ r = quoted m.1 ++ (':' :: (m.2 ++ r)) := by
  rw [memberChars, List.append_assoc, List.cons_append]

theorem memberChars_injective : Function.Injective memberChars := by
  intro m n h
  have happend : memberChars m ++ [] = memberChars n ++ [] := by rw [h]
  rw [memberChars_append, memberChars_append] at happend
  obtain ⟨hkey, hrest⟩ := quoted_inj happend
  refine Prod.ext hkey ?_
  simpa using hrest

theorem opens_memberChars (m : String × List Char) : Opens (memberChars m) :=
  ⟨'"', _, rfl, by decide, by decide, by decide⟩

theorem separated_memberChars {m n : String × List Char} (h : Separated m.2 n.2) :
    Separated (memberChars m) (memberChars n) := by
  intro r s hr hs heq
  rw [memberChars_append, memberChars_append] at heq
  obtain ⟨hkey, hrest⟩ := quoted_inj heq
  obtain ⟨hvalue, hrs⟩ := h hr hs (List.cons.inj hrest).2
  exact ⟨by rw [memberChars, memberChars, hkey, hvalue], hrs⟩

/-! ### Kinds of values -/

/-- What the first character of a text tells about its value. -/
inductive Kind where
  | null | yes | no | number | text | array | object
deriving DecidableEq

/-- The kind of a value. -/
def kind : Json → Kind
  | .null => .null
  | .bool true => .yes
  | .bool false => .no
  | .number _ => .number
  | .text _ => .text
  | .array _ => .array
  | .object _ => .object

/-- The kind of the values whose texts start with a character. -/
def Kind.ofChar? (c : Char) : Option Kind :=
  if isNumberChar c then some .number
  else if c = 'n' then some .null
  else if c = 't' then some .yes
  else if c = 'f' then some .no
  else if c = '"' then some .text
  else if c = '[' then some .array
  else if c = '\x7b' then some .object
  else none

/-- Texts of numbers: there is a character, and each may stand in a number. -/
structure NumberTexts (number : Number → List Char) : Prop where
  ne_nil : ∀ n : Number, n.isWritable = true → number n ≠ []
  numberChar : ∀ n : Number, n.isWritable = true → ∀ c ∈ number n, isNumberChar c = true

variable {number : Number → List Char}

/-- **The first character of a text tells the kind of its value.** -/
theorem exists_head (hnumber : NumberTexts number) {v : Json} (hv : v.isWritable = true) :
    ∃ c rest, charsWith number v = c :: rest ∧ Kind.ofChar? c = some v.kind := by
  cases v with
  | null => exact ⟨'n', _, rfl, by decide⟩
  | bool b =>
      cases b with
      | true => exact ⟨'t', _, rfl, by decide⟩
      | false => exact ⟨'f', _, rfl, by decide⟩
  | number n =>
      rw [isWritable_number] at hv
      obtain ⟨c, rest, htext⟩ := List.exists_cons_of_ne_nil (hnumber.ne_nil n hv)
      have hc : isNumberChar c = true := hnumber.numberChar n hv c (by rw [htext]; simp)
      exact ⟨c, rest, by rw [charsWith, htext], if_pos hc⟩
  | text s => exact ⟨'"', _, rfl, rfl⟩
  | array items => exact ⟨'[', _, by rw [charsWith]; rfl, rfl⟩
  | object members => exact ⟨'\x7b', _, by rw [charsWith]; rfl, rfl⟩

theorem opens_charsWith (hnumber : NumberTexts number) {v : Json} (hv : v.isWritable = true) :
    Opens (charsWith number v) := by
  obtain ⟨c, rest, htext, hkind⟩ := exists_head hnumber hv
  have hne : ∀ d, Kind.ofChar? d = none → c ≠ d := by
    rintro d hd rfl
    rw [hd] at hkind
    cases hkind
  exact ⟨c, rest, htext, hne _ (by decide), hne _ (by decide), hne _ (by decide)⟩

theorem kind_eq_of_append (hnumber : NumberTexts number) {a b : Json} (ha : a.isWritable = true)
    (hb : b.isWritable = true) {r s : List Char}
    (h : charsWith number a ++ r = charsWith number b ++ s) : a.kind = b.kind := by
  obtain ⟨c, rest, htext, hkind⟩ := exists_head hnumber ha
  obtain ⟨d, more, htext', hkind'⟩ := exists_head hnumber hb
  rw [htext, htext'] at h
  obtain rfl : c = d := (List.cons.inj h).1
  exact Option.some.inj (hkind.symm.trans hkind')

/-- A number ends where a character follows that may not stand in one. -/
theorem separated_number (hnumber : NumberTexts number) {m n : Number} (hm : m.isWritable = true)
    (hn : n.isWritable = true) : Separated (number m) (number n) := by
  intro r s hr hs h
  have htake : ∀ {k : Number} {rest : List Char}, k.isWritable = true → Ended rest →
      (number k ++ rest).takeWhile isNumberChar = number k := by
    intro k rest hk hrest
    rw [List.takeWhile_append_of_pos (hnumber.numberChar k hk)]
    cases rest with
    | nil => rw [List.takeWhile_nil, List.append_nil]
    | cons c more =>
        have hc : ¬ isNumberChar c = true := by
          rcases hrest c rfl with rfl | rfl | rfl <;> decide
        rw [List.takeWhile_cons_of_neg hc, List.append_nil]
  have heq : number m = number n := by
    have htaken := htake hm hr
    rw [h, htake hn hs] at htaken
    exact htaken.symm
  rw [heq] at h
  exact ⟨heq, List.append_cancel_left h⟩

/-! ### Values -/

theorem charsWith_array_append (items : List Json) (r : List Char) :
    charsWith number (.array items) ++ r =
      '[' :: (commaSeparated (items.map (charsWith number)) ++ ']' :: r) := by
  rw [charsWith, itemsWith_eq_map]
  simp

/-- The members of an object as they are written, in order and each key once. -/
def writtenMembers (number : Number → List Char) (members : List (String × Json)) :
    List (String × List Char) :=
  (Dictionary.ofList (membersWith number members)).entries

theorem charsWith_object_append (members : List (String × Json)) (r : List Char) :
    charsWith number (.object members) ++ r =
      '\x7b' :: (commaSeparated ((writtenMembers number members).map memberChars) ++
        '\x7d' :: r) := by
  rw [charsWith, writtenMembers]
  simp

theorem exists_of_mem_writtenMembers {members : List (String × Json)} {m : String × List Char}
    (h : m ∈ writtenMembers number members) : ∃ v ∈ members, m.2 = charsWith number v.2 := by
  have hmem := Dictionary.mem_of_mem_ofList h
  rw [membersWith_eq_map] at hmem
  obtain ⟨v, hv, rfl⟩ := List.mem_map.mp hmem
  exact ⟨v, hv, rfl⟩

/-- Texts can be told apart if the values are the same wherever the texts are. -/
theorem separated_of_same {v w : Json}
    (h : ∀ {r s : List Char}, Ended r → Ended s →
      charsWith number v ++ r = charsWith number w ++ s →
        Same (fun m n => number m = number n) v w ∧ r = s) :
    Separated (charsWith number v) (charsWith number w) := by
  intro r s hr hs heq
  obtain ⟨hsame, hrs⟩ := h hr hs heq
  exact ⟨charsWith_eq_of_same (fun _ _ hmn => hmn) hsame, hrs⟩

/-- The items of arrays can be told apart, given that each one of the first array can. -/
theorem items_inj (hnumber : NumberTexts number) {items others : List Json}
    (hitems : ∀ v ∈ items, v.isWritable = true) (hothers : ∀ v ∈ others, v.isWritable = true)
    (hsep : ∀ v ∈ items, ∀ w ∈ others, Separated (charsWith number v) (charsWith number w))
    {r s : List Char}
    (h : charsWith number (.array items) ++ r = charsWith number (.array others) ++ s) :
    items.map (charsWith number) = others.map (charsWith number) ∧ r = s := by
  rw [charsWith_array_append, charsWith_array_append] at h
  refine commaSeparated_inj (Or.inl rfl) ?_ ?_ ?_ (List.cons.inj h).2
  · exact List.forall_mem_map.mpr fun v hv => opens_charsWith hnumber (hitems v hv)
  · exact List.forall_mem_map.mpr fun v hv => opens_charsWith hnumber (hothers v hv)
  · exact List.forall_mem_map.mpr fun v hv => List.forall_mem_map.mpr fun w hw => hsep v hv w hw

/-- The members of objects can be told apart, given that each value of the first object can. -/
theorem members_inj {members others : List (String × Json)}
    (hsep : ∀ m ∈ members, ∀ n ∈ others,
      Separated (charsWith number m.2) (charsWith number n.2))
    {r s : List Char}
    (h : charsWith number (.object members) ++ r = charsWith number (.object others) ++ s) :
    writtenMembers number members = writtenMembers number others ∧ r = s := by
  rw [charsWith_object_append, charsWith_object_append] at h
  have htexts : (writtenMembers number members).map memberChars =
      (writtenMembers number others).map memberChars ∧ r = s := by
    refine commaSeparated_inj (Or.inr rfl) ?_ ?_ ?_ (List.cons.inj h).2
    · exact List.forall_mem_map.mpr fun m _ => opens_memberChars m
    · exact List.forall_mem_map.mpr fun m _ => opens_memberChars m
    · refine List.forall_mem_map.mpr fun m hm => List.forall_mem_map.mpr fun n hn => ?_
      obtain ⟨v, hv, hmv⟩ := exists_of_mem_writtenMembers hm
      obtain ⟨w, hw, hnw⟩ := exists_of_mem_writtenMembers hn
      refine separated_memberChars ?_
      rw [hmv, hnw]
      exact hsep v hv w hw
  exact ⟨List.map_injective_iff.mpr memberChars_injective htexts.1, htexts.2⟩

/-- Objects with the same written members have the same text for every key. -/
theorem map_lastMember?_eq {members others : List (String × Json)}
    (h : writtenMembers number members = writtenMembers number others) (key : String) :
    (lastMember? key members).map (charsWith number) =
      (lastMember? key others).map (charsWith number) := by
  rw [← get?_membersWith, ← get?_membersWith]
  exact congrArg (fun written => (written.find? (fun m => m.1 == key)).map (·.2)) h

/--
**A text determines its value and where it ends.**  The induction is on the first value; the
second one is of the same kind, because the texts start with the same character.
-/
theorem same_of_append (hnumber : NumberTexts number) (a : Json) :
    ∀ b : Json, a.isWritable = true → b.isWritable = true → ∀ {r s : List Char}, Ended r → Ended s →
      charsWith number a ++ r = charsWith number b ++ s →
        Same (fun m n => number m = number n) a b ∧ r = s := by
  induction a using Json.induction with
  | null =>
      intro b ha hb r s _ _ h
      have hkind := kind_eq_of_append hnumber ha hb h
      rcases b with _ | (_ | _) | _ | _ | _ | _ <;> try cases hkind
      exact ⟨.null, List.append_cancel_left h⟩
  | bool x =>
      intro b ha hb r s _ _ h
      have hkind := kind_eq_of_append hnumber ha hb h
      rcases x with _ | _ <;> rcases b with _ | (_ | _) | _ | _ | _ | _ <;> try cases hkind
      · exact ⟨.bool false, List.append_cancel_left h⟩
      · exact ⟨.bool true, List.append_cancel_left h⟩
  | number n =>
      intro b ha hb r s hr hs h
      have hkind := kind_eq_of_append hnumber ha hb h
      rcases b with _ | (_ | _) | m | _ | _ | _ <;> try cases hkind
      rw [isWritable_number] at ha hb
      obtain ⟨hnumbers, hrs⟩ := separated_number hnumber ha hb hr hs h
      exact ⟨.number hnumbers, hrs⟩
  | text t =>
      intro b ha hb r s _ _ h
      have hkind := kind_eq_of_append hnumber ha hb h
      rcases b with _ | (_ | _) | _ | u | _ | _ <;> try cases hkind
      obtain ⟨rfl, hrs⟩ := quoted_inj h
      exact ⟨.text t, hrs⟩
  | array items ih =>
      intro b ha hb r s _ _ h
      have hkind := kind_eq_of_append hnumber ha hb h
      rcases b with _ | (_ | _) | _ | _ | others | _ <;> try cases hkind
      rw [isWritable_array_iff] at ha hb
      -- first the texts are cut at the commas, then each is taken as the text of an item
      obtain ⟨htexts, hrs⟩ := items_inj hnumber ha hb
        (fun v hv w hw => separated_of_same (ih v hv w (ha v hv) (hb w hw))) h
      refine ⟨.array (by simpa using congrArg List.length htexts) fun i v w hv hw => ?_, hrs⟩
      have hvw : charsWith number v = charsWith number w := by
        simpa [hv, hw] using congrArg (fun texts => texts[i]?) htexts
      have hmem := List.mem_of_getElem? hv
      exact (ih v hmem w (ha v hmem) (hb w (List.mem_of_getElem? hw)) ended_nil ended_nil
        (congrArg (· ++ []) hvw)).1
  | object members ih =>
      intro b ha hb r s _ _ h
      have hkind := kind_eq_of_append hnumber ha hb h
      rcases b with _ | (_ | _) | _ | _ | _ | others <;> try cases hkind
      rw [isWritable_object_iff] at ha hb
      obtain ⟨hwritten, hrs⟩ := members_inj
        (fun m hm n hn => separated_of_same (ih m hm n.2 (ha m hm) (hb n hn))) h
      refine ⟨.object (fun key => ?_) fun key v w hv hw => ?_, hrs⟩
      · simpa using congrArg Option.isSome (map_lastMember?_eq hwritten key)
      · have hvw : charsWith number v = charsWith number w := by
          simpa [hv, hw] using map_lastMember?_eq hwritten key
        have hmem := mem_of_lastMember? hv
        exact (ih _ hmem w (ha _ hmem) (hb _ (mem_of_lastMember? hw)) ended_nil ended_nil
          (congrArg (· ++ []) hvw)).1

end Rewards.Json
