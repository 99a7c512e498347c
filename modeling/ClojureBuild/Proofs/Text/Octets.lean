import ClojureBuild.Text.Octets
import ClojureBuild.Proofs.Text.Splitting
import Mathlib.Data.List.Flatten
import Mathlib.Data.List.Induction
import Mathlib.Data.Set.List
import Mathlib.Data.String.Basic
/-!
Texts and their octets.

A text is written character by character, and a byte below 128 never stands within a longer
character.  So the octets of a text are cut at an ASCII separator where the text is.  Main
statement: what the octets of a text are read as is that text again, so that they tell it.
-/

namespace ClojureBuild.Octets

/-! ### Characters -/

theorem toNat_ofNat {n : Nat} (h : n.isValidChar) : (Char.ofNat n).toNat = n := by
  rw [Char.ofNat, dif_pos h]
  exact UInt32.toNat_ofNatLT ..

theorem toNat_ofNat_of_not {n : Nat} (h : ¬ n.isValidChar) : (Char.ofNat n).toNat = 0 := by
  rw [Char.ofNat, dif_neg h]
  rfl

theorem toNat_range (c : Char) : c.toNat < 0xd800 ∨ 0xdfff < c.toNat ∧ c.toNat < 0x110000 := by
  have hvalid := c.valid
  rwa [UInt32.isValidChar, Nat.isValidChar] at hvalid

theorem map_toNat_encodeChar (c : Char) :
    (encodeChar c).map Char.toNat = (String.utf8EncodeChar c).map UInt8.toNat := by
  rw [encodeChar, List.map_map]
  refine List.map_congr_left fun b _ => toNat_ofNat (Or.inl ?_)
  have hbyte := b.toNat_lt
  omega

theorem encodeChar_ascii {c : Char} (h : c.toNat < 128) : encodeChar c = [c] := by
  have hle : c.val.toNat ≤ 127 := Nat.le_of_lt_succ h
  rw [encodeChar, String.utf8EncodeChar, if_pos hle, List.map_singleton, UInt8.toNat_ofNat',
    Nat.mod_eq_of_lt (Nat.lt_of_le_of_lt hle (by decide))]
  exact congrArg (fun d => [d]) (Char.ofNat_toNat c)

/-- A longer character is written with bytes from 128 on. -/
theorem le_of_mem_encodeChar {c d : Char} (h : 128 ≤ c.toNat) (hd : d ∈ encodeChar c) :
    128 ≤ d.toNat := by
  have hlong : ¬ c.val.toNat ≤ 127 := Nat.not_le.2 h
  have hbyte : d.toNat ∈ (encodeChar c).map Char.toNat := List.mem_map_of_mem hd
  rw [map_toNat_encodeChar, String.utf8EncodeChar, if_neg hlong] at hbyte
  have hrange := toNat_range c
  rw [Char.toNat] at hrange
  split_ifs at hbyte <;>
    simp only [List.map_cons, List.map_nil, List.mem_cons, List.not_mem_nil, or_false,
      UInt8.toNat_ofNat'] at hbyte <;> omega

theorem encodeChar_ne_nil (c : Char) : encodeChar c ≠ [] := by
  rw [encodeChar, ne_eq, List.map_eq_nil_iff]
  exact String.utf8EncodeChar_ne_nil

/-! ### Reading -/

section

variable {b : Nat} {front rest : List Nat} {e : Expected}

theorem decode_first (hb : 128 ≤ b) (h : expected? b = some e) :
    decode none (b :: rest) = decode (some ([b], e)) rest := by
  rw [decode, begin?, if_neg (Nat.not_lt.2 hb), h]

theorem decode_next (hleast : e.least ≤ b) (hgreatest : b ≤ e.greatest) (h : e.missing ≠ 1) :
    decode (some (front, e)) (b :: rest) =
      decode (some (front ++ [b], ⟨e.missing - 1, 0x80, 0xbf, e.value * 64 + b % 64⟩)) rest := by
  rw [decode]
  simp [hleast, hgreatest, h]

theorem decode_last (hleast : e.least ≤ b) (hgreatest : b ≤ e.greatest) (h : e.missing = 1) :
    decode (some (front, e)) (b :: rest) =
      .inl (Char.ofNat (e.value * 64 + b % 64)) :: decode none rest := by
  rw [decode]
  simp [hleast, hgreatest, h]

theorem expected?_two (hleast : 0xc2 ≤ b) (hgreatest : b ≤ 0xdf) :
    expected? b = some ⟨1, 0x80, 0xbf, b % 32⟩ := by
  simp [expected?, hleast, hgreatest]

/-- Behind the first byte of three, the second one is kept from writing a shorter character or a
surrogate. -/
theorem expected?_three (hleast : 0xe0 ≤ b) (hgreatest : b ≤ 0xef) :
    expected? b =
      some ⟨2, if b = 0xe0 then 0xa0 else 0x80, if b = 0xed then 0x9f else 0xbf, b % 16⟩ := by
  have hlong : ¬ b ≤ 0xdf := by omega
  by_cases hshort : b = 0xe0
  · simp [expected?, hshort]
  · by_cases hsurrogate : b = 0xed
    · simp [expected?, hsurrogate]
    · have hmore : 0xe1 ≤ b := by omega
      simp [expected?, hlong, hshort, hsurrogate, hmore, hgreatest]

/-- Behind the first byte of four, the second one is kept from writing a shorter character or what
is none. -/
theorem expected?_four (hleast : 0xf0 ≤ b) (hgreatest : b ≤ 0xf4) :
    expected? b =
      some ⟨3, if b = 0xf0 then 0x90 else 0x80, if b = 0xf4 then 0x8f else 0xbf, b % 8⟩ := by
  have hlong : ¬ b ≤ 0xdf ∧ ¬ b ≤ 0xef ∧ b ≠ 0xe0 ∧ b ≠ 0xed := by omega
  by_cases hshort : b = 0xf0
  · simp [expected?, hshort]
  · by_cases hbeyond : b = 0xf4
    · simp [expected?, hbeyond]
    · have hmore : 0xf1 ≤ b ∧ b ≤ 0xf3 := by omega
      simp [expected?, hlong, hshort, hbeyond, hmore]

end

/-- The bytes of a character are read as that character, whatever follows. -/
theorem decode_encodeChar (c : Char) (rest : List Nat) :
    decode none ((encodeChar c).map Char.toNat ++ rest) = .inl c :: decode none rest := by
  have hrange := toNat_range c
  have hback : Char.ofNat c.toNat = c := Char.ofNat_toNat c
  rw [map_toNat_encodeChar, String.utf8EncodeChar]
  change c.val.toNat < _ ∨ _ < c.val.toNat ∧ c.val.toNat < _ at hrange
  change Char.ofNat c.val.toNat = c at hback
  generalize c.val.toNat = v at hrange hback
  subst hback
  split_ifs with hone htwo hthree
  · simp only [List.map_cons, List.map_nil, List.cons_append, List.nil_append, UInt8.toNat_ofNat']
    rw [Nat.mod_eq_of_lt (by omega), decode, begin?, if_pos (by omega)]
  · simp only [List.map_cons, List.map_nil, List.cons_append, List.nil_append, UInt8.toNat_ofNat']
    rw [decode_first (by omega) (expected?_two (by omega) (by omega)),
      decode_last (by simp only; omega) (by simp only; omega) rfl]
    congr 3
    simp only
    omega
  · simp only [List.map_cons, List.map_nil, List.cons_append, List.nil_append, UInt8.toNat_ofNat']
    rw [decode_first (by omega) (expected?_three (by omega) (by omega)),
      decode_next (by simp only; split_ifs <;> omega) (by simp only; split_ifs <;> omega)
        (by simp),
      decode_last (by simp only; omega) (by simp only; omega) rfl]
    congr 3
    simp only
    omega
  · simp only [List.map_cons, List.map_nil, List.cons_append, List.nil_append, UInt8.toNat_ofNat']
    rw [decode_first (by omega) (expected?_four (by omega) (by omega)),
      decode_next (by simp only; split_ifs <;> omega) (by simp only; split_ifs <;> omega)
        (by simp),
      decode_next (by simp only; omega) (by simp only; omega) (by simp),
      decode_last (by simp only; omega) (by simp only; omega) rfl]
    congr 3
    simp only
    omega

theorem decode_flatMap (text : List Char) (rest : List Nat) :
    decode none ((text.flatMap encodeChar).map Char.toNat ++ rest) =
      text.map .inl ++ decode none rest := by
  induction text with
  | nil => rfl
  | cons c more ih =>
      rw [List.flatMap_cons, List.map_append, List.append_assoc, decode_encodeChar, ih,
        List.map_cons, List.cons_append]

theorem begin?_eq_inr_iff {b : Nat} {e : Expected} :
    begin? b = .inr e ↔ ¬ b < 128 ∧ expected? b = some e := by
  rw [begin?]
  by_cases hb : b < 128
  · simp [hb]
  · cases expected? b <;> simp [hb]

theorem begin?_eq_char_iff {b : Nat} {c : Char} :
    begin? b = .inl (.inl c) ↔ b < 128 ∧ Char.ofNat b = c := by
  rw [begin?]
  by_cases hb : b < 128
  · simp [hb]
  · cases expected? b <;> simp [hb]

theorem le_least_of_begin? {b : Nat} {e : Expected} (h : begin? b = .inr e) : 128 ≤ e.least := by
  obtain ⟨-, h⟩ := begin?_eq_inr_iff.1 h
  unfold expected? at h
  split_ifs at h <;> simp only [Option.some.injEq] at h <;> subst h <;> simp only <;> omega

/-- A byte below 128 is read as its character wherever it stands, even where a longer character
breaks off. -/
theorem mem_decode {b : Nat} (hb : b < 128) {bytes : List Nat} (hin : b ∈ bytes)
    {state : Option (List Nat × Expected)} (hstate : ∀ s, state = some s → 128 ≤ s.2.least) :
    .inl (Char.ofNat b) ∈ decode state bytes := by
  induction bytes generalizing state with
  | nil => exact absurd hin (List.not_mem_nil)
  | cons first rest ih =>
      have hfresh : .inl (Char.ofNat b) ∈ decode none (first :: rest) := by
        rw [decode]
        rcases List.mem_cons.1 hin with rfl | hrest
        · rw [begin?, if_pos hb]
          exact List.mem_cons_self
        · cases hbegin : begin? first with
          | inl piece => exact List.mem_cons_of_mem _ (ih hrest (by simp))
          | inr e =>
              exact ih hrest fun s hs => Option.some.inj hs ▸ le_least_of_begin? hbegin
      cases state with
      | none => exact hfresh
      | some s =>
          obtain ⟨front, e⟩ := s
          have hleast : 128 ≤ e.least := hstate _ rfl
          rw [decode]
          split
          next hnext =>
              simp only [Bool.and_eq_true, decide_eq_true_eq] at hnext
              have hrest : b ∈ rest := by
                refine (List.mem_cons.1 hin).resolve_left fun heq => ?_
                omega
              split
              · exact List.mem_cons_of_mem _ (ih hrest (by simp))
              · exact ih hrest (by simp)
          next => exact List.mem_cons_of_mem _ hfresh

/-! ### Texts -/

theorem flatMap_encodeChar_ascii {text : List Char} (h : ∀ c ∈ text, c.toNat < 128) :
    text.flatMap encodeChar = text := by
  induction text with
  | nil => rfl
  | cons c rest ih =>
      rw [List.flatMap_cons, encodeChar_ascii (h c List.mem_cons_self),
        ih fun d hd => h d (List.mem_cons_of_mem c hd), List.singleton_append]

/-- A text whose characters are written as themselves. -/
def Ascii (text : String) : Prop := text.toList.all (·.toNat < 128) = true

instance (text : String) : Decidable (Ascii text) :=
  inferInstanceAs (Decidable (text.toList.all (·.toNat < 128) = true))

theorem Ascii.lt {text : String} (h : Ascii text) : ∀ c ∈ text.toList, c.toNat < 128 :=
  fun c hc => of_decide_eq_true (List.all_eq_true.1 h c hc)

theorem toList_ofText (text : String) : (ofText text).toList = text.toList.flatMap encodeChar := by
  rw [ofText]
  split
  next hascii => exact (flatMap_encodeChar_ascii (Ascii.lt hascii)).symm
  next => exact String.toList_ofList

theorem ofText_ascii {text : String} (h : Ascii text) : ofText text = text := by
  rw [← String.toList_inj, toList_ofText, flatMap_encodeChar_ascii h.lt]

theorem pieces_ofText (text : String) : pieces (ofText text) = text.toList.map .inl := by
  have hread := decode_flatMap text.toList []
  rwa [List.append_nil, ← toList_ofText, decode, List.append_nil] at hread

/-- An ASCII character stands in the octets of a text when it stands in the text. -/
theorem mem_flatMap_encodeChar_iff {c : Char} (hc : c.toNat < 128) {text : List Char} :
    c ∈ text.flatMap encodeChar ↔ c ∈ text := by
  rw [List.mem_flatMap]
  constructor
  · rintro ⟨d, hd, hin⟩
    rcases Nat.lt_or_ge d.toNat 128 with hascii | hlong
    · rw [encodeChar_ascii hascii, List.mem_singleton] at hin
      exact hin ▸ hd
    · exact absurd hc (Nat.not_lt.2 (le_of_mem_encodeChar hlong hin))
  · exact fun hin => ⟨c, hin, by rw [encodeChar_ascii hc]; exact List.mem_singleton_self c⟩

theorem mem_ofText_iff {c : Char} (hc : c.toNat < 128) {text : String} :
    c ∈ (ofText text).toList ↔ c ∈ text.toList := by
  rw [toList_ofText, mem_flatMap_encodeChar_iff hc]

/-- The octets of a text are read as the text. -/
theorem toText_ofText (text : String) : toText (ofText text) = text := by
  rw [toText]
  split
  next hascii =>
      refine ofText_ascii (List.all_eq_true.2 fun c hc => decide_eq_true ?_)
      rcases Nat.lt_or_ge c.toNat 128 with hlt | hlong
      · exact hlt
      · obtain ⟨d, hd⟩ := List.exists_mem_of_ne_nil _ (encodeChar_ne_nil c)
        have hin : d ∈ (ofText text).toList := by
          rw [toList_ofText]
          exact List.mem_flatMap.2 ⟨c, hc, hd⟩
        exact absurd (Ascii.lt hascii d hin) (Nat.not_lt.2 (le_of_mem_encodeChar hlong hd))
  next =>
      rw [pieces_ofText, List.map_map, ← String.toList_inj, String.toList_ofList]
      exact List.map_id _

/-- Reading keeps the ASCII characters. -/
theorem mem_toText_of_mem {c : Char} (hc : c.toNat < 128) {octets : OsText}
    (hin : c ∈ octets.toList) : c ∈ (toText octets).toList := by
  rw [toText]
  split
  next => exact hin
  next =>
      have hbyte : c.toNat ∈ octets.toList.map Char.toNat := List.mem_map_of_mem hin
      have hpiece := @mem_decode _ hc _ hbyte none (by simp)
      rw [Char.ofNat_toNat] at hpiece
      rw [String.toList_ofList]
      exact List.mem_map.2 ⟨_, hpiece, rfl⟩

theorem ofText_injective : Function.Injective ofText := by
  intro text text' h
  rw [← toText_ofText text, h, toText_ofText]

theorem text?_eq_some_iff {octets : OsText} {text : String} :
    text? octets = some text ↔ ofText text = octets := by
  rw [text?]
  constructor
  · intro h
    split at h
    next hback => rwa [← Option.some.inj h]
    next => exact absurd h (by simp)
  · rintro rfl
    rw [toText_ofText, if_pos rfl]

@[simp]
theorem text?_ofText (text : String) : text? (ofText text) = some text :=
  text?_eq_some_iff.2 rfl

theorem isText_iff {octets : OsText} : isText octets = true ↔ ∃ text, ofText text = octets := by
  simp only [isText, Option.isSome_iff_exists, text?_eq_some_iff]

/-- Names are read strictly, all of them, exactly when they are those of texts. -/
theorem mapM_text?_eq_some_iff {names : List OsText} {texts : List String} :
    names.mapM text? = some texts ↔ texts.map ofText = names := by
  induction names generalizing texts with
  | nil => simp [eq_comm]
  | cons name rest ih =>
      simp only [List.mapM_cons, Option.bind_eq_bind, Option.bind_eq_some_iff, ih,
        text?_eq_some_iff, Option.pure_def, Option.some.injEq]
      constructor
      · rintro ⟨text, rfl, more, rfl, rfl⟩
        rfl
      · intro h
        obtain ⟨text, more, rfl, hname, hrest⟩ := List.map_eq_cons_iff.1 h
        exact ⟨text, hname, more, hrest, rfl⟩

theorem exists_map_ofText_iff {names : List OsText} :
    (∃ texts : List String, texts.map ofText = names) ↔ ∀ name ∈ names, isText name = true := by
  have hrange : (∃ texts : List String, texts.map ofText = names) ↔
      names ∈ Set.range (List.map ofText) := Iff.rfl
  rw [hrange, Set.range_list_map]
  exact forall₂_congr fun name _ => isText_iff.symm

theorem ofText_append (text text' : String) :
    ofText (text ++ text') = ofText text ++ ofText text' := by
  rw [← String.toList_inj, String.toList_append, toList_ofText, toList_ofText, toList_ofText,
    String.toList_append, List.flatMap_append]

theorem ofText_eq_iff_of_ascii {text ascii : String} (h : Ascii ascii) :
    ofText text = ascii ↔ text = ascii := by
  constructor
  · intro heq
    exact ofText_injective (heq.trans (ofText_ascii h).symm)
  · rintro rfl
    exact ofText_ascii h

theorem ofText_eq_empty_iff {text : String} : ofText text = "" ↔ text = "" :=
  ofText_eq_iff_of_ascii (by decide)

theorem ofText_append_ascii (text : String) {ascii : String} (h : Ascii ascii) :
    ofText (text ++ ascii) = ofText text ++ ascii := by
  rw [ofText_append, ofText_ascii h]

/-- What stands before an ASCII character at the end of a text is a text. -/
theorem exists_of_flatMap_eq_concat {text front : List Char} {c : Char} (hc : c.toNat < 128)
    (h : text.flatMap encodeChar = front ++ [c]) :
    ∃ before : List Char, before.flatMap encodeChar = front := by
  rcases List.eq_nil_or_concat text with rfl | ⟨before, d, rfl⟩
  · exact absurd h (by simp)
  · rw [List.concat_eq_append, List.flatMap_append, List.flatMap_singleton] at h
    have hin : c ∈ encodeChar d := by
      have hlast := congrArg List.getLast? h
      rw [List.getLast?_append_of_ne_nil _ (encodeChar_ne_nil d), List.getLast?_concat] at hlast
      exact List.mem_of_getLast? hlast
    rcases Nat.lt_or_ge d.toNat 128 with hascii | hlong
    · rw [encodeChar_ascii hascii] at h
      exact ⟨before, (List.append_inj' h rfl).1⟩
    · exact absurd hc (Nat.not_lt.2 (le_of_mem_encodeChar hlong hin))

theorem exists_of_flatMap_eq_append {text front ascii : List Char}
    (hascii : ∀ c ∈ ascii, c.toNat < 128) (h : text.flatMap encodeChar = front ++ ascii) :
    ∃ before : List Char, before.flatMap encodeChar = front := by
  induction ascii using List.reverseRecOn generalizing text with
  | nil => exact ⟨text, by rw [h, List.append_nil]⟩
  | append_singleton more c ih =>
      rw [← List.append_assoc] at h
      obtain ⟨before, hbefore⟩ := exists_of_flatMap_eq_concat (hascii c (by simp)) h
      exact ih (fun d hd => hascii d (by simp [hd])) hbefore

/-- A name with an ASCII ending is a text when it is one without. -/
theorem isText_append_ascii {octets ascii : OsText} (h : Ascii ascii) :
    isText (octets ++ ascii) = isText octets := by
  rw [Bool.eq_iff_iff, isText_iff, isText_iff]
  constructor
  · rintro ⟨text, htext⟩
    rw [← String.toList_inj, toList_ofText, String.toList_append] at htext
    obtain ⟨before, hbefore⟩ := exists_of_flatMap_eq_append h.lt htext
    exact ⟨String.ofList before, by
      rw [← String.toList_inj, toList_ofText, String.toList_ofList, hbefore]⟩
  · rintro ⟨text, rfl⟩
    exact ⟨text ++ ascii, ofText_append_ascii text h⟩

/-! ### Separators -/

theorem flatMap_joinWith {sep : Char} (hsep : sep.toNat < 128) (pieces : List (List Char)) :
    (Text.joinWith sep pieces).flatMap encodeChar =
      Text.joinWith sep (pieces.map (List.flatMap encodeChar)) := by
  induction pieces with
  | nil => rfl
  | cons piece rest ih =>
      cases rest with
      | nil => rfl
      | cons next more =>
          rw [Text.joinWith, List.flatMap_append, List.flatMap_cons, encodeChar_ascii hsep, ih]
          rfl

/-- Octets are cut at an ASCII separator where the text is. -/
theorem splitOn_flatMap {sep : Char} (hsep : sep.toNat < 128) (text : List Char) :
    Text.splitOn sep (text.flatMap encodeChar) =
      (Text.splitOn sep text).map (List.flatMap encodeChar) := by
  have hpieces : ∀ piece ∈ (Text.splitOn sep text).map (List.flatMap encodeChar), sep ∉ piece := by
    intro piece hpiece
    obtain ⟨chars, hchars, rfl⟩ := List.mem_map.1 hpiece
    rw [mem_flatMap_encodeChar_iff hsep]
    exact Text.not_mem_of_mem_splitOn hchars
  have hne : (Text.splitOn sep text).map (List.flatMap encodeChar) ≠ [] :=
    mt List.map_eq_nil_iff.1 (Text.splitOn_ne_nil sep text)
  conv_lhs => rw [← Text.joinWith_splitOn sep text, flatMap_joinWith hsep]
  exact Text.splitOn_joinWith hne hpieces

theorem splitString_ofText {sep : Char} (hsep : sep.toNat < 128) (text : String) :
    Text.splitString sep (ofText text) = (Text.splitString sep text).map ofText := by
  rw [Text.splitString, toList_ofText, splitOn_flatMap hsep, Text.splitString, List.map_map,
    List.map_map]
  refine List.map_congr_left fun piece _ => ?_
  rw [Function.comp_apply, Function.comp_apply, ← String.toList_inj, String.toList_ofList,
    toList_ofText, String.toList_ofList]

theorem isText_ofList_iff {chars : List Char} :
    isText (String.ofList chars) = true ↔ ∃ text : List Char, text.flatMap encodeChar = chars := by
  rw [isText_iff]
  constructor
  · rintro ⟨text, htext⟩
    exact ⟨text.toList, by rw [← toList_ofText, htext, String.toList_ofList]⟩
  · rintro ⟨text, rfl⟩
    exact ⟨String.ofList text, by
      rw [← String.toList_inj, toList_ofText, String.toList_ofList, String.toList_ofList]⟩

/-- A separator cuts a text into texts. -/
theorem isText_append_sep {sep : Char} (hsep : sep.toNat < 128) (front back : List Char) :
    isText (String.ofList (front ++ sep :: back)) =
      (isText (String.ofList front) && isText (String.ofList back)) := by
  rw [Bool.eq_iff_iff, Bool.and_eq_true, isText_ofList_iff, isText_ofList_iff, isText_ofList_iff]
  constructor
  · rintro ⟨text, htext⟩
    have hcut := splitOn_flatMap hsep text
    rw [htext, Text.splitOn_append_sep] at hcut
    obtain ⟨fronts, backs, -, hfronts, hbacks⟩ := List.map_eq_append_iff.1 hcut.symm
    exact ⟨⟨Text.joinWith sep fronts, by
        rw [flatMap_joinWith hsep, hfronts, Text.joinWith_splitOn]⟩,
      Text.joinWith sep backs, by rw [flatMap_joinWith hsep, hbacks, Text.joinWith_splitOn]⟩
  · rintro ⟨⟨before, rfl⟩, after, rfl⟩
    exact ⟨before ++ sep :: after, by
      rw [List.flatMap_append, List.flatMap_cons, encodeChar_ascii hsep, List.singleton_append]⟩

theorem isText_of_mem_splitOn {sep : Char} (hsep : sep.toNat < 128) {chars piece : List Char}
    (h : isText (String.ofList chars) = true) (hpiece : piece ∈ Text.splitOn sep chars) :
    isText (String.ofList piece) = true := by
  obtain ⟨text, rfl⟩ := isText_ofList_iff.1 h
  rw [splitOn_flatMap hsep] at hpiece
  obtain ⟨chars, -, rfl⟩ := List.mem_map.1 hpiece
  exact isText_ofList_iff.2 ⟨chars, rfl⟩

/-! ### What is shown behind a text -/

/-- A text in front of octets is shown as it is. -/
theorem toText_append (text : String) (octets : OsText) :
    toText (ofText text ++ octets) = text ++ toText octets := by
  have hpieces : ∀ o : OsText, toText o =
      String.ofList ((pieces o).map (Sum.elim id fun _ => replacement)) := by
    intro o
    rw [toText]
    split
    next hascii =>
        have hread := pieces_ofText o
        rw [ofText_ascii hascii] at hread
        rw [hread, List.map_map]
        simp
    · rfl
  rw [hpieces, hpieces, ← String.toList_inj, String.toList_append, String.toList_ofList,
    String.toList_ofList, pieces, String.toList_append, List.map_append, toList_ofText,
    decode_flatMap, List.map_append, List.map_map]
  simp [pieces]

/-- The bytes of a longer character write none below 128, however many are read already. -/
structure Expected.High (e : Expected) : Prop where
  next : ∀ b, e.least ≤ b → b ≤ e.greatest → 2 ≤ e.value * 64 + b % 64
  last : e.missing = 1 → ∀ b, e.least ≤ b → b ≤ e.greatest → 128 ≤ e.value * 64 + b % 64

theorem high_of_begin? {b : Nat} {e : Expected} (h : begin? b = .inr e) : e.High := by
  obtain ⟨hlong, hexpected⟩ := begin?_eq_inr_iff.1 h
  unfold expected? at hexpected
  split_ifs at hexpected <;> simp only [Option.some.injEq, Bool.and_eq_true,
    decide_eq_true_eq] at * <;> subst hexpected <;>
    exact ⟨fun c hleast hgreatest => by simp only at *; omega,
      fun hone c hleast hgreatest => by simp only at *; omega⟩

theorem Expected.High.step {e : Expected} (h : e.High) {b : Nat} (hleast : e.least ≤ b)
    (hgreatest : b ≤ e.greatest) :
    (⟨e.missing - 1, 0x80, 0xbf, e.value * 64 + b % 64⟩ : Expected).High := by
  have hnext := h.next b hleast hgreatest
  exact ⟨fun c _ _ => by simp only; omega, fun _ c _ _ => by simp only; omega⟩

/-- The character of a byte below 128 comes first only where that byte does. -/
theorem head_decode {c : Char} (hc : c.toNat < 128) (hnul : c.toNat ≠ 0) {bytes : List Nat}
    {state : Option (List Nat × Expected)} (hstate : ∀ s, state = some s → s.2.High)
    (h : (decode state bytes).head? = some (.inl c)) :
    state = none ∧ bytes.head? = some c.toNat := by
  induction bytes generalizing state with
  | nil => cases state <;> simp [decode] at h
  | cons b rest ih =>
      cases state with
      | none =>
          rw [decode] at h
          cases hbegin : begin? b with
          | inl piece =>
              rw [hbegin] at h
              obtain rfl : piece = .inl c := by simpa using h
              obtain ⟨hshort, rfl⟩ := begin?_eq_char_iff.1 hbegin
              exact ⟨rfl, by rw [toNat_ofNat (by omega), List.head?_cons]⟩
          | inr e =>
              rw [hbegin] at h
              have hin := (ih (fun s hs => Option.some.inj hs ▸ high_of_begin? hbegin) h).1
              exact absurd hin (by simp)
      | some s =>
          obtain ⟨front, e⟩ := s
          have he : e.High := hstate _ rfl
          rw [decode] at h
          split at h
          next hnext =>
              simp only [Bool.and_eq_true, decide_eq_true_eq] at hnext
              obtain ⟨hleast, hgreatest⟩ := hnext
              split at h
              next hone =>
                  have hvalue := he.last hone b hleast hgreatest
                  have hsame : Char.ofNat (e.value * 64 + b % 64) = c := by simpa using h
                  by_cases hvalid : (e.value * 64 + b % 64).isValidChar
                  · have hback := toNat_ofNat hvalid
                    rw [hsame] at hback
                    omega
                  · exact absurd (hsame ▸ toNat_ofNat_of_not hvalid) hnul
              next =>
                  have hin := (ih (fun s hs => Option.some.inj hs ▸ he.step hleast hgreatest) h).1
                  exact absurd hin (by simp)
          next => exact absurd h (by simp)

theorem decode_some_ne_nil (s : List Nat × Expected) (bytes : List Nat) :
    decode (some s) bytes ≠ [] := by
  induction bytes generalizing s with
  | nil => simp [decode]
  | cons b rest ih =>
      rw [decode]
      split
      · simp only
        split
        · exact List.cons_ne_nil _ _
        · exact ih _
      · exact List.cons_ne_nil _ _

/-- Something is shown of octets unless there are none. -/
theorem toText_eq_empty_iff {octets : OsText} : toText octets = "" ↔ octets = "" := by
  have hnone : toText "" = "" := by decide
  refine ⟨fun h => ?_, fun h => h ▸ hnone⟩
  by_contra hne
  obtain ⟨c, rest, hchars⟩ := List.exists_cons_of_ne_nil (mt String.toList_eq_nil_iff.1 hne)
  have hpieces : pieces octets ≠ [] := by
    rw [pieces, hchars, List.map_cons, decode]
    cases begin? c.toNat with
    | inl piece => exact List.cons_ne_nil _ _
    | inr e => exact decode_some_ne_nil _ _
  rw [toText] at h
  split at h
  · exact hne h
  · rw [← String.toList_eq_nil_iff, String.toList_ofList, List.map_eq_nil_iff] at h
    exact hpieces h

/-- What is shown of octets begins with an ASCII character when they do. -/
theorem head_toText_iff {c : Char} (hc : c.toNat < 128) (hnul : c.toNat ≠ 0) {octets : OsText} :
    (toText octets).toList.head? = some c ↔ octets.toList.head? = some c := by
  rw [toText]
  split
  · rfl
  next hlong =>
      rw [String.toList_ofList, List.head?_map]
      constructor
      · intro h
        obtain ⟨piece, hpiece, heq⟩ := Option.map_eq_some_iff.1 h
        cases piece with
        | inl d =>
            obtain rfl : d = c := heq
            have hfirst := (head_decode hc hnul (by simp) hpiece).2
            rw [List.head?_map, Option.map_eq_some_iff] at hfirst
            obtain ⟨first, hhead, hsame⟩ := hfirst
            rw [hhead, Char.toNat_inj.1 hsame]
        | inr bytes =>
            rw [← show replacement = c from heq] at hc
            exact absurd hc (by decide)
      · intro h
        obtain ⟨rest, hrest⟩ := List.head?_eq_some_iff.1 h
        rw [pieces, hrest, List.map_cons, decode, begin?, if_pos hc, Char.ofNat_toNat]
        rfl

end ClojureBuild.Octets
