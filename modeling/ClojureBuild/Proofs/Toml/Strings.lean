import ClojureBuild.Toml.Document
import Mathlib.Data.List.Infix
/-!
Strings between quotes.

A text is put between quotes and becomes the last thing on a line.  Reading the line gives the text
back exactly when every character of it stands for itself.  If another value is read, the line still
ends where it did: a text without backslashes and line ends cannot reach into the next line, as long
as no three quotes in a row stand further down.
-/

namespace ClojureBuild.Toml

open Reader

/-! ### Runs of characters -/

/-- A run of characters is read to its end, where the reader fails. -/
theorem manyUpTo_append {p : Reader Char} {chars back : List Char}
    (hchars : ∀ c ∈ chars, ∀ text, p (c :: text) = some (c, text)) (hback : p back = none)
    {n : Nat} (hn : chars.length ≤ n) : manyUpTo p n (chars ++ back) = some (chars, back) := by
  induction chars generalizing n with
  | nil => cases n <;> simp [manyUpTo, hback]
  | cons c rest ih =>
      cases n with
      | zero => exact absurd hn (by simp)
      | succ n =>
          have hrest := ih (fun d hd => hchars d (List.mem_cons_of_mem c hd))
            (Nat.le_of_succ_le_succ hn)
          simp [manyUpTo, hchars c List.mem_cons_self, hrest]

theorem many_append {p : Reader Char} {chars back : List Char}
    (hchars : ∀ c ∈ chars, ∀ text, p (c :: text) = some (c, text)) (hback : p back = none) :
    many p (chars ++ back) = some (chars, back) :=
  manyUpTo_append hchars hback (by simp)

/-! ### Readers that take what they give -/

/-- A text without backslashes and returns: what is read of it is what is written. -/
structure Literal (text : List Char) : Prop where
  noBackslash : '\\' ∉ text
  noReturn : '\r' ∉ text

theorem Literal.append {front text : List Char} (hfront : Literal front) (htext : Literal text) :
    Literal (front ++ text) :=
  ⟨by simp [hfront.noBackslash, htext.noBackslash], by simp [hfront.noReturn, htext.noReturn]⟩

theorem Literal.right {front text : List Char} (h : Literal (front ++ text)) : Literal text :=
  ⟨fun hin => h.noBackslash (List.mem_append_right front hin),
    fun hin => h.noReturn (List.mem_append_right front hin)⟩

/-- Off a literal text the reader takes what its value spells, and the value is good. -/
def Takes {α : Type} (spell : α → List Char) (good : α → Prop) (p : Reader α) : Prop :=
  ∀ text a rest, Literal text → p text = some (a, rest) → text = spell a ++ rest ∧ good a

namespace Takes

variable {α β : Type} {spell : α → List Char} {good : α → Prop} {p q : Reader α}

theorem of_none (h : ∀ text, Literal text → p text = none) : Takes spell good p := by
  intro text a rest hraw hread
  rw [h text hraw] at hread
  exact absurd hread (by simp)

theorem either (hp : Takes spell good p) (hq : Takes spell good q) :
    Takes spell good (either p q) := by
  intro text a rest hraw hread
  rw [Reader.either] at hread
  split at hread
  next hfirst => exact hp text a rest hraw (hfirst.trans hread)
  · exact hq text a rest hraw hread

theorem wrap {spell' : β → List Char} {good' : β → Prop} (hp : Takes spell good p) (f : α → β)
    (hspell : ∀ a, spell' (f a) = spell a) (hgood : ∀ a, good a → good' (f a)) :
    Takes spell' good' fun text => (p text).bind fun read => pure (f read.1, read.2) := by
  intro text b rest hraw hread
  obtain ⟨⟨a, behind⟩, hfirst, hb⟩ := Option.bind_eq_some_iff.1 hread
  cases hb
  obtain ⟨htext, ha⟩ := hp text a behind hraw hfirst
  exact ⟨by rw [hspell, ← htext], hgood a ha⟩

theorem manyUpTo (hp : Takes spell good p) (n : Nat) :
    Takes (fun items : List α => items.flatMap spell) (fun items => ∀ a ∈ items, good a)
      (manyUpTo p n) := by
  intro text items rest hraw hread
  induction n generalizing text items with
  | zero =>
      cases hread
      simp
  | succ n ih =>
      rw [Reader.manyUpTo] at hread
      split at hread
      · cases hread
        simp
      next a mid hfirst =>
          obtain ⟨hspelled, hgood⟩ := hp text a mid hraw hfirst
          split at hread
          · exact absurd hread (by simp)
          next others last hothers =>
              cases hread
              obtain ⟨hmid, hall⟩ := ih mid others (hspelled ▸ hraw).right hothers
              exact ⟨by simp [hspelled, hmid], List.forall_mem_cons.2 ⟨hgood, hall⟩⟩

theorem many (hp : Takes spell good p) :
    Takes (fun items : List α => items.flatMap spell) (fun items => ∀ a ∈ items, good a)
      (many p) :=
  fun text => hp.manyUpTo text.length text

end Takes

theorem eq_of_exactly {c : Char} {text rest : List Char} {u : Unit}
    (h : exactly c text = some (u, rest)) : text = c :: rest := by
  cases text with
  | nil => exact absurd h (by simp [exactly])
  | cons d more =>
      rw [exactly] at h
      split at h
      next hc =>
          cases h
          rw [hc]
      · exact absurd h (by simp)

theorem eq_of_word {w text rest : List Char} {u : Unit} (h : word w text = some (u, rest)) :
    text = w ++ rest := by
  induction w generalizing text with
  | nil =>
      cases h
      rfl
  | cons c w ih =>
      cases text with
      | nil => exact absurd h (by simp [word])
      | cons d more =>
          rw [word] at h
          split at h
          next hc => rw [hc, ih h, List.cons_append]
          · exact absurd h (by simp)

theorem takes_char (test : Char → Bool) :
    Takes (fun c => [c]) (fun c => test c = true) (char test) := by
  intro text c rest _ h
  cases text with
  | nil => exact absurd h (by simp [char])
  | cons d more =>
      rw [char] at h
      split at h
      next hd =>
          cases h
          exact ⟨rfl, hd⟩
      · exact absurd h (by simp)

theorem takes_newline : Takes (fun _ => ['\n']) (fun _ => True) newline := by
  intro text u rest hraw h
  unfold newline at h
  split at h
  · cases h
    exact ⟨rfl, trivial⟩
  · exact absurd List.mem_cons_self hraw.noReturn
  · exact absurd h (by simp)

theorem takes_escape : Takes (fun c => [c]) (fun c => isBasicChar c = true) escape := by
  refine .of_none fun text hraw => ?_
  have hnot := hraw.noBackslash
  unfold escape
  split
  all_goals simp_all

theorem takes_lineJoin : Takes (fun _ => []) (fun _ => True) lineJoin := by
  refine .of_none fun text hraw => ?_
  cases text with
  | nil => rfl
  | cons c rest =>
      have hc : ¬ '\\' = c := fun heq => hraw.noBackslash (heq ▸ List.mem_cons_self)
      simp [lineJoin, exactly, hc]

theorem takes_innerQuotes (quote : Char) : Takes id (fun _ => True) (innerQuotes quote) := by
  intro text part rest _ h
  refine ⟨?_, trivial⟩
  unfold innerQuotes at h
  grind

theorem replicate_append_drop {c : Char} {text : List Char} {n : Nat}
    (h : n ≤ (text.takeWhile (· = c)).length) : text = List.replicate n c ++ text.drop n := by
  induction n generalizing text with
  | zero => rfl
  | succ n ih =>
      cases text with
      | nil => exact absurd h (by simp)
      | cons d rest =>
          by_cases hd : d = c
          · subst hd
            have hrest : n ≤ (rest.takeWhile (· = d)).length := by simpa using h
            rw [List.replicate_succ, List.cons_append, List.drop_succ_cons, ← ih hrest]
          · exact absurd h (by simp [hd])

/-- The closing quotes are the last three of those that are read. -/
theorem eq_of_closingQuotes {quote : Char} {last text rest : List Char}
    (h : closingQuotes quote text = some (last, rest)) :
    text = last ++ (List.replicate 3 quote ++ rest) := by
  simp only [closingQuotes] at h
  split at h
  next hfive =>
      cases h
      exact replicate_append_drop hfive
  · split at h
    next hfour =>
        cases h
        exact replicate_append_drop hfour.ge
    · split at h
      next hthree =>
          cases h
          exact replicate_append_drop hthree.ge
      · exact absurd h (by simp)

/-! ### What a string spells -/

/-- The text of a string of one line is between two quotes, and holds none. -/
theorem eq_of_basicString {text rest : List Char} {v : String} (hraw : Literal text)
    (h : basicString text = some (v, rest)) :
    text = ('"' :: v.toList ++ ['"']) ++ rest ∧ ∀ c ∈ v.toList, isBasicChar c = true := by
  simp only [basicString, Option.bind_eq_bind, Option.bind_eq_some_iff, Prod.exists] at h
  obtain ⟨_, inside, hopen, chars, behind, hchars, _, last, hclose, hv⟩ := h
  obtain rfl := eq_of_exactly hopen
  obtain rfl := eq_of_exactly hclose
  cases hv
  have hinside : Literal inside := @Literal.right ['"'] inside hraw
  have hitem := (takes_char isBasicChar).either takes_escape
  obtain ⟨htext, hall⟩ := hitem.many inside chars _ hinside hchars
  rw [htext, String.toList_ofList]
  exact ⟨by simp, hall⟩

/-- The text of a string of several lines is between three quotes and three quotes, but for a line
end right behind the first ones. -/
theorem eq_of_longBasicString {text rest : List Char} {v : String} (hraw : Literal text)
    (h : longBasicString text = some (v, rest)) :
    ∃ gap, text = (List.replicate 3 '"' ++ gap ++ v.toList ++ List.replicate 3 '"') ++ rest := by
  simp only [longBasicString, Option.bind_eq_bind, Option.bind_eq_some_iff, Prod.exists] at h
  obtain ⟨_, inside, hopen, first, body, hgap, parts, behind, hparts, last, final, hclose, hv⟩ := h
  obtain rfl := eq_of_word hopen
  obtain rfl := eq_of_closingQuotes hclose
  cases hv
  have hinside : Literal inside := hraw.right
  have hoptional : ∃ gap, inside = gap ++ body := by
    rw [Reader.optional] at hgap
    split at hgap
    next u behind hnewline =>
        cases hgap
        exact ⟨_, (takes_newline inside u body hinside hnewline).1⟩
    · cases hgap
      exact ⟨[], rfl⟩
  obtain ⟨gap, rfl⟩ := hoptional
  have hpart : Takes id (fun _ => True) _ :=
    ((takes_char isBasicChar).wrap (fun c => [c]) (fun _ => rfl) fun _ _ => trivial).either <|
      (takes_lineJoin.wrap (fun _ => []) (fun _ => rfl) fun _ _ => trivial).either <|
        (takes_escape.wrap (fun c => [c]) (fun _ => rfl) fun _ _ => trivial).either <|
          (takes_newline.wrap (fun _ => ['\n']) (fun _ => rfl) fun _ _ => trivial).either
            (takes_innerQuotes '"')
  obtain ⟨htext, -⟩ := hpart.many body parts _ hinside.right hparts
  refine ⟨gap, ?_⟩
  simp [htext, List.replicate]

/-- What stands between quotes at the end of a line, and how the text goes on behind the line. -/
structure Quoted (line below : List Char) : Prop where
  literal : Literal (line ++ below)
  noBreak : '\n' ∉ line
  noMark : ¬ List.replicate 3 '"' <:+: below

/-- A text that begins with `taken` and does not reach into the next line takes a part of its own
line. -/
theorem exists_front {line below taken rest : List Char}
    (h : line ++ '\n' :: below = taken ++ rest)
    (hnot : ∀ later, later <+: below → taken ≠ line ++ '\n' :: later) :
    ∃ front, line = taken ++ front ∧ rest = front ++ '\n' :: below := by
  rcases List.append_eq_append_iff.1 h with ⟨more, htaken, hbelow⟩ | ⟨front, hline, hrest⟩
  · cases more with
    | nil => exact ⟨[], by simp_all, by simp_all⟩
    | cons c later =>
        obtain ⟨rfl, rfl⟩ := List.cons.inj hbelow
        exact absurd htaken (hnot later (List.prefix_append later rest))
  · exact ⟨front, hline, hrest⟩

theorem string_cases {chars rest : List Char} {v : String}
    (h : string ('"' :: chars) = some (v, rest)) :
    basicString ('"' :: chars) = some (v, rest) ∨
      longBasicString ('"' :: chars) = some (v, rest) := by
  have hliteral : either longLiteralString literalString ('"' :: chars) = none := by
    simp [either, longLiteralString, literalString, word, exactly]
  rw [string, either, either, hliteral] at h
  split at h
  next hlong => exact Or.inr (hlong.trans h)
  · split at h
    next hbasic => exact Or.inl (hbasic.trans h)
    · exact absurd h (by simp)

theorem infix_of_suffix {c : Char} {mark line later below : List Char} (hmark : c ∉ mark)
    (hlater : later <+: below) (h : mark <:+ line ++ c :: later) : mark <:+: below := by
  rcases List.suffix_or_suffix_of_suffix h (List.suffix_append line (c :: later)) with hin | hin
  · rcases List.suffix_cons_iff.1 hin with rfl | hin
    · exact absurd List.mem_cons_self hmark
    · exact hin.isInfix.trans hlater.isInfix
  · exact absurd (hin.subset List.mem_cons_self) hmark

/-- Whatever string a line ends in when it is read, the reading stays on the line; and the string is
the text between the quotes only if every character stands for itself. -/
theorem exists_front_of_string {chars below rest : List Char} {v : String}
    (hquoted : Quoted chars below)
    (h : string ('"' :: (chars ++ '"' :: '\n' :: below)) = some (v, rest)) :
    (∃ front, front <:+ chars ++ ['"'] ∧ rest = front ++ '\n' :: below) ∧
      (v.toList = chars → ∀ c ∈ chars, isBasicChar c = true) := by
  have hraw : Literal ('"' :: (chars ++ '"' :: '\n' :: below)) := by
    have hchars := hquoted.literal
    constructor
    · simpa using hchars.noBackslash
    · simpa using hchars.noReturn
  have hline : '"' :: (chars ++ '"' :: '\n' :: below) =
      ('"' :: (chars ++ ['"'])) ++ '\n' :: below := by simp
  have hbehind : ∀ {taken front : List Char}, taken ≠ [] →
      '"' :: (chars ++ ['"']) = taken ++ front → front <:+ chars ++ ['"'] := by
    intro taken front htaken heq
    obtain ⟨c, more, rfl⟩ := List.exists_cons_of_ne_nil htaken
    exact ⟨more, (List.cons.inj heq).2.symm⟩
  rcases string_cases h with hbasic | hlong
  · obtain ⟨htext, hall⟩ := eq_of_basicString hraw hbasic
    have hbreak : '\n' ∉ '"' :: v.toList ++ ['"'] := by
      have hin : '\n' ∉ v.toList := fun hin => absurd (hall '\n' hin) (by decide)
      simp [hin]
    obtain ⟨front, hfront, hrest⟩ := exists_front (hline.symm.trans htext)
      fun later _ heq => hbreak (heq ▸ by simp)
    exact ⟨⟨front, hbehind (by simp) hfront, hrest⟩, fun hsame => hsame ▸ hall⟩
  · obtain ⟨gap, htext⟩ := eq_of_longBasicString hraw hlong
    have hmark : '\n' ∉ List.replicate 3 '"' := by decide
    obtain ⟨front, hfront, hrest⟩ := exists_front (hline.symm.trans htext)
      fun later hlater heq => hquoted.noMark
        (infix_of_suffix hmark hlater (heq ▸ List.suffix_append _ _))
    refine ⟨⟨front, hbehind (by simp) hfront, hrest⟩, fun hsame => ?_⟩
    -- Six quotes around the text are more than the line has.
    have hlength := congrArg List.length hfront
    rw [hsame] at hlength
    simp at hlength
    omega

/-- A text that is not empty is read back from between its quotes if every character stands for
itself. -/
theorem string_of_basic {chars : List Char} (hne : chars ≠ [])
    (hall : ∀ c ∈ chars, isBasicChar c = true) (rest : List Char) :
    string ('"' :: (chars ++ '"' :: rest)) = some (String.ofList chars, rest) := by
  have hlong : longBasicString ('"' :: (chars ++ '"' :: rest)) = none := by
    obtain ⟨c, more, rfl⟩ := List.exists_cons_of_ne_nil hne
    have hquote : ¬ '"' = c := fun heq => absurd (hall c List.mem_cons_self) (heq ▸ by decide)
    simp [longBasicString, word, hquote]
  have hchars : many (either (char isBasicChar) escape) (chars ++ '"' :: rest) =
      some (chars, '"' :: rest) := by
    refine many_append (fun c hc text => ?_) ?_
    · simp [either, char, hall c hc]
    · have hend : isBasicChar '"' = false := by decide
      simp [either, char, hend, escape]
  have hbasic : basicString ('"' :: (chars ++ '"' :: rest)) =
      some (String.ofList chars, rest) := by
    simp [basicString, exactly, hchars]
  rw [string, either, hlong, either, hbasic]

/-! ### Lines -/

theorem dropWhile_append_cons {test : Char → Bool} {c : Char} (hc : test c = false)
    (front back : List Char) :
    (front ++ c :: back).dropWhile test = front.dropWhile test ++ c :: back := by
  induction front with
  | nil => simp [hc]
  | cons d rest ih =>
      by_cases hd : test d = true
      · simp [hd, ih]
      · simp [hd]

theorem exists_of_comment (front below : List Char) :
    ∃ read kept, kept <:+ front ∧
      optional comment (front ++ '\n' :: below) = some (read, kept ++ '\n' :: below) := by
  cases front with
  | nil => exact ⟨none, [], List.suffix_rfl, by simp [Reader.optional, comment]⟩
  | cons c rest =>
      by_cases hc : c = '#'
      · subst hc
        refine ⟨some (), rest.dropWhile isCommentChar,
          (List.dropWhile_suffix _).trans (List.suffix_cons _ _), ?_⟩
        have hrest : (rest ++ '\n' :: below).dropWhile isCommentChar =
            rest.dropWhile isCommentChar ++ '\n' :: below :=
          dropWhile_append_cons (by decide) rest below
        simp [Reader.optional, comment, hrest]
      · exact ⟨none, c :: rest, List.suffix_rfl, by simp [Reader.optional, comment, hc]⟩

/-- What is left of a line ends where the line does. -/
theorem eq_of_lineEnd {front below rest : List Char} {u : Unit} (hbreak : '\n' ∉ front)
    (hreturn : '\r' ∉ front) (h : lineEnd (front ++ '\n' :: below) = some (u, rest)) :
    rest = below := by
  have hblank : (front ++ '\n' :: below).dropWhile isBlankChar =
      front.dropWhile isBlankChar ++ '\n' :: below := dropWhile_append_cons (by decide) front below
  have hdropped := List.dropWhile_suffix isBlankChar (l := front)
  obtain ⟨read, kept, hkept, hcomment⟩ := exists_of_comment (front.dropWhile isBlankChar) below
  simp only [lineEnd, blanks, hblank, hcomment, Option.bind_eq_bind, Option.bind_some] at h
  have hon : kept <:+ front := hkept.trans hdropped
  cases kept with
  | nil =>
      cases h
      rfl
  | cons c more =>
      have hc : c ∈ front := hon.subset List.mem_cons_self
      have hnotBreak : c ≠ '\n' := fun heq => hbreak (heq ▸ hc)
      have hnotReturn : c ≠ '\r' := fun heq => hreturn (heq ▸ hc)
      simp [newline, hnotBreak, hnotReturn] at h

/-- More fuel reads the same lines. -/
theorem lines_add {fuel : Nat} {draft result : Draft} {text : List Char}
    (h : lines fuel draft text = some result) (more : Nat) :
    lines (fuel + more) draft text = some result := by
  induction fuel generalizing draft text with
  | zero => exact absurd h (by simp [lines])
  | succ fuel ih =>
      rw [Nat.succ_add, lines]
      rw [lines] at h
      split at h
      · exact h
      · split at h
        · exact absurd h (by simp)
        · exact ih h

end ClojureBuild.Toml
