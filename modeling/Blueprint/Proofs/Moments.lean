import Blueprint.Proofs.Numerals

/-! # Texts of moments

Which texts are read as a moment, and as which one. Reading is generous: blanks may stand before
each number, a number may have fewer digits than it is written with, and a year may have a sign
and any number of digits. Writing has one form for each moment, and that form is read as the same
moment. So two texts have the same canonical form exactly if they spell the same moment.
-/

namespace Blueprint.Moment

open Text Numeral

variable {most n : Nat} {y : Int} {cs rest : List Char}

/-! ### What a text starts with -/

/-- Whether a text starts with the digits of a number, and no digit follows them. -/
def TakesDigits (n : Nat) (cs rest : List Char) : Prop :=
  ∃ digits, cs = digits ++ rest ∧ IsDigits 10 n digits ∧ rest.head?.all (!·.isDigit)

/-- Whether a text starts with blanks and then the digits of a number, up to `most` of them, and
with all of them unless there are more. -/
def TakesNumber (most n : Nat) (cs rest : List Char) : Prop :=
  ∃ blanks digits, cs = blanks ++ (digits ++ rest) ∧ (∀ c ∈ blanks, isBlank c) ∧
    IsDigits 10 n digits ∧ digits.length ≤ most ∧
    (digits.length = most ∨ rest.head?.all (!·.isDigit))

/-- Whether a text starts with a year: up to four digits, or a sign and any number of them. -/
inductive TakesYear : Int → List Char → List Char → Prop where
  | plain {n : Nat} {cs rest : List Char} (h : TakesNumber 4 n cs rest) : TakesYear n cs rest
  | plus {n : Nat} {blanks cs rest : List Char} (hblanks : ∀ c ∈ blanks, isBlank c)
      (h : TakesDigits n cs rest) : TakesYear n (blanks ++ '+' :: cs) rest
  | minus {n : Nat} {blanks cs rest : List Char} (hblanks : ∀ c ∈ blanks, isBlank c)
      (h : TakesDigits n cs rest) : TakesYear (-n) (blanks ++ '-' :: cs) rest

/-- Whether a text starts with a year, a month and a day, with hyphens between them. -/
def TakesDate (date : Int × Nat × Nat) (cs rest : List Char) : Prop :=
  ∃ afterYear afterMonth, TakesYear date.1 cs ('-' :: afterYear) ∧
    TakesNumber 2 date.2.1 afterYear ('-' :: afterMonth) ∧ TakesNumber 2 date.2.2 afterMonth rest

/-- Whether a text starts with an hour, a minute and a second, with colons between them. -/
def TakesClock (clock : Nat × Nat × Nat) (cs rest : List Char) : Prop :=
  ∃ afterHour afterMinute, TakesNumber 2 clock.1 cs (':' :: afterHour) ∧
    TakesNumber 2 clock.2.1 afterHour (':' :: afterMinute) ∧
    TakesNumber 2 clock.2.2 afterMinute rest

/-- Whether a text of a temporal kind spells a date and a time of day, which need not exist. -/
inductive Spells : Kind → Moment → List Char → Prop where
  | date {year : Int} {month day : Nat} {cs : List Char}
      (h : TakesDate (year, month, day) cs []) : Spells .date ⟨year, month, day, 0, 0, 0⟩ cs
  | time {hour minute second : Nat} {cs : List Char}
      (h : TakesClock (hour, minute, second) cs []) :
      Spells .time ⟨1970, 1, 1, hour, minute, second⟩ cs
  | timestamp {year : Int} {month day hour minute second : Nat} {cs rest : List Char}
      (hdate : TakesDate (year, month, day) cs rest)
      (hclock : TakesClock (hour, minute, second) rest []) :
      Spells .timestamp ⟨year, month, day, hour, minute, second⟩ cs

/-! ### Numbers -/

theorem trimStart_blanks_append {blanks : List Char} (hblanks : ∀ c ∈ blanks, isBlank c)
    (cs : List Char) : Chars.trimStart (blanks ++ cs) = Chars.trimStart cs :=
  List.dropWhile_append_of_pos hblanks

theorem exists_blanks (cs : List Char) :
    ∃ blanks, (∀ c ∈ blanks, isBlank c) ∧ cs = blanks ++ Chars.trimStart cs :=
  ⟨cs.takeWhile isBlank, fun _ hc => List.mem_takeWhile_imp hc,
    List.takeWhile_append_dropWhile.symm⟩

theorem trimStart_of_isDigits {digits : List Char} (h : IsDigits 10 n digits) (rest : List Char) :
    Chars.trimStart (digits ++ rest) = digits ++ rest := by
  obtain ⟨hne, hdigit⟩ := h.isDigit (by decide) (by decide)
  obtain ⟨c, tail, rfl⟩ := List.exists_cons_of_ne_nil hne
  exact Chars.trimStart_cons (isBlank_of_isDigit (hdigit c List.mem_cons_self)) _

theorem head?_dropWhile (p : Char → Bool) (cs : List Char) :
    (cs.dropWhile p).head?.all (!p ·) := by
  have hhead := List.head?_dropWhile_not p cs
  split at hhead
  next hc => simp [hc, hhead]
  next hnone => simp [hnone]

theorem takeWhile_append_of_head? {p : Char → Bool} {front back : List Char}
    (hfront : ∀ c ∈ front, p c) (hback : back.head?.all (!p ·)) :
    (front ++ back).takeWhile p = front ∧ (front ++ back).dropWhile p = back := by
  rw [List.takeWhile_append_of_pos hfront, List.dropWhile_append_of_pos hfront]
  cases back with
  | nil => exact ⟨List.append_nil _, rfl⟩
  | cons c back =>
      have hc : ¬ p c := by simpa using hback
      rw [List.takeWhile_cons_of_neg hc, List.dropWhile_cons_of_neg hc]
      exact ⟨List.append_nil _, rfl⟩

theorem unbounded?_eq_some_iff : unbounded? cs = some (n, rest) ↔ TakesDigits n cs rest := by
  simp only [unbounded?, Option.map_eq_some_iff, Prod.mk.injEq,
    digits?_eq_some_iff (by decide : 1 < 10) (Nat.le_refl 10)]
  constructor
  · rintro ⟨_, hdigits, rfl, rfl⟩
    exact ⟨_, List.takeWhile_append_dropWhile.symm, hdigits, head?_dropWhile _ cs⟩
  · rintro ⟨digits, rfl, hdigits, hrest⟩
    obtain ⟨htake, hdrop⟩ :=
      takeWhile_append_of_head? (hdigits.isDigit (by decide) (by decide)).2 hrest
    exact ⟨n, by rwa [htake], rfl, hdrop⟩

/-- Of the digits at the start of a text, all are taken unless there are more than may be. -/
theorem takeWhile_take (most : Nat) (cs : List Char) :
    let digits := (cs.take most).takeWhile Char.isDigit
    cs = digits ++ cs.drop digits.length ∧ digits.length ≤ most ∧
      (digits.length = most ∨ (cs.drop digits.length).head?.all (!·.isDigit)) := by
  intro digits
  have hstart : digits <+: cs.take most := List.takeWhile_prefix _
  have hlength : digits.length ≤ most := hstart.length_le.trans (List.length_take_le _ _)
  refine ⟨(List.prefix_iff_eq_append.mp (hstart.trans ( List.take_prefix _ _))).symm, hlength, ?_⟩
  rcases Nat.eq_or_lt_of_le hlength with hfull | hmore
  · exact Or.inl hfull
  · -- The text that may be looked at goes on, with what is no digit.
    have hdrop : (cs.take most).dropWhile Char.isDigit = (cs.take most).drop digits.length :=
      List.drop_left.symm.trans (congrArg (List.drop digits.length) List.takeWhile_append_dropWhile)
    have hhead := head?_dropWhile Char.isDigit (cs.take most)
    rw [hdrop, List.drop_take, List.head?_take, if_neg (by omega)] at hhead
    exact Or.inr hhead

theorem takeWhile_take_append {digits : List Char} (hdigits : ∀ c ∈ digits, c.isDigit)
    (hlength : digits.length ≤ most)
    (hrest : digits.length = most ∨ rest.head?.all (!·.isDigit)) :
    ((digits ++ rest).take most).takeWhile Char.isDigit = digits := by
  rw [List.take_append, List.take_of_length_le hlength]
  refine (takeWhile_append_of_head? hdigits ?_).1
  rw [List.head?_take]
  split
  next => rfl
  next hzero => exact hrest.resolve_left fun hfull => hzero (by omega)

theorem number?_eq_some_iff : number? most cs = some (n, rest) ↔ TakesNumber most n cs rest := by
  simp only [number?, Option.map_eq_some_iff, Prod.mk.injEq,
    digits?_eq_some_iff (by decide : 1 < 10) (Nat.le_refl 10)]
  constructor
  · rintro ⟨_, hdigits, rfl, rfl⟩
    obtain ⟨blanks, hblanks, hcs⟩ := exists_blanks cs
    obtain ⟨hsplit, hlength, hrest⟩ := takeWhile_take most (Chars.trimStart cs)
    exact ⟨blanks, _, hsplit ▸ hcs, hblanks, hdigits, hlength, hrest⟩
  · rintro ⟨blanks, digits, rfl, hblanks, hdigits, hlength, hrest⟩
    have htake := takeWhile_take_append (hdigits.isDigit (by decide) (by decide)).2 hlength hrest
    rw [trimStart_blanks_append hblanks, trimStart_of_isDigits hdigits, htake]
    exact ⟨n, hdigits, rfl, List.drop_left⟩

theorem TakesNumber.blanks_append {blanks : List Char} (hblanks : ∀ c ∈ blanks, isBlank c)
    (h : TakesNumber most n cs rest) : TakesNumber most n (blanks ++ cs) rest := by
  obtain ⟨front, digits, rfl, hfront, hdigits⟩ := h
  refine ⟨blanks ++ front, digits, (List.append_assoc _ _ _).symm, ?_, hdigits⟩
  exact List.forall_mem_append.mpr ⟨hblanks, hfront⟩

/-! ### Dates and times of day -/

theorem year?_blanks_append {blanks : List Char} (hblanks : ∀ c ∈ blanks, isBlank c)
    (cs : List Char) : year? (blanks ++ cs) = year? cs := by
  rw [year?, year?, trimStart_blanks_append hblanks]

theorem year?_eq_some_iff : year? cs = some (y, rest) ↔ TakesYear y cs rest := by
  constructor
  · intro h
    obtain ⟨blanks, hblanks, hcs⟩ := exists_blanks cs
    unfold year? at h
    rw [hcs]
    split at h
    next tail htail =>
      obtain ⟨p, hp, heq⟩ := Option.map_eq_some_iff.mp h
      obtain ⟨rfl, rfl⟩ := Prod.mk.inj heq
      rw [htail]
      exact .minus hblanks (unbounded?_eq_some_iff.mp hp)
    next tail htail =>
      obtain ⟨p, hp, heq⟩ := Option.map_eq_some_iff.mp h
      obtain ⟨rfl, rfl⟩ := Prod.mk.inj heq
      rw [htail]
      exact .plus hblanks (unbounded?_eq_some_iff.mp hp)
    next =>
      obtain ⟨p, hp, heq⟩ := Option.map_eq_some_iff.mp h
      obtain ⟨rfl, rfl⟩ := Prod.mk.inj heq
      exact .plain ((number?_eq_some_iff.mp hp).blanks_append hblanks)
  · intro h
    cases h with
    | plain h =>
        obtain ⟨blanks, digits, rfl, hblanks, hdigits, hend⟩ := h
        have hread : number? 4 (digits ++ rest) = some (_, rest) := number?_eq_some_iff.mpr
          ⟨[], digits, rfl, fun _ hc => absurd hc List.not_mem_nil, hdigits, hend⟩
        obtain ⟨hne, hdigit⟩ := hdigits.isDigit (by decide) (by decide)
        obtain ⟨c, tail, rfl⟩ := List.exists_cons_of_ne_nil hne
        rw [List.cons_append] at hread ⊢
        rw [year?_blanks_append hblanks, year?_of_isDigit (hdigit c List.mem_cons_self), hread]
        rfl
    | plus hblanks h =>
        rw [year?_blanks_append hblanks, year?_plus, unbounded?_eq_some_iff.mpr h]
        rfl
    | minus hblanks h =>
        rw [year?_blanks_append hblanks, year?_hyphen, unbounded?_eq_some_iff.mpr h]
        rfl

theorem expect?_eq_some_iff {c : Char} : expect? c cs = some rest ↔ cs = c :: rest := by
  cases cs with
  | nil => exact iff_of_false nofun nofun
  | cons d cs =>
      rw [expect?, Option.ite_none_right_eq_some, Option.some.injEq, List.cons.injEq, eq_comm]

theorem date?_eq_some_iff {date : Int × Nat × Nat} :
    date? cs = some (date, rest) ↔ TakesDate date cs rest := by
  constructor
  · intro h
    obtain ⟨_, hyear, h⟩ := Option.bind_eq_some_iff.mp h
    obtain ⟨afterYear, hfirst, h⟩ := Option.bind_eq_some_iff.mp h
    obtain ⟨_, hmonth, h⟩ := Option.bind_eq_some_iff.mp h
    obtain ⟨afterMonth, hsecond, h⟩ := Option.bind_eq_some_iff.mp h
    obtain ⟨_, hday, h⟩ := Option.bind_eq_some_iff.mp h
    obtain ⟨rfl, rfl⟩ := Prod.mk.inj (Option.some.inj h)
    refine ⟨afterYear, afterMonth, ?_, ?_, number?_eq_some_iff.mp hday⟩
    · rw [← expect?_eq_some_iff.mp hfirst]
      exact year?_eq_some_iff.mp hyear
    · rw [← expect?_eq_some_iff.mp hsecond]
      exact number?_eq_some_iff.mp hmonth
  · rintro ⟨afterYear, afterMonth, hyear, hmonth, hday⟩
    rw [date?, year?_eq_some_iff.mpr hyear]
    simp only [Option.bind_eq_bind, Option.bind_some, expect?, if_true,
      number?_eq_some_iff.mpr hmonth, number?_eq_some_iff.mpr hday]
    rfl

theorem clock?_eq_some_iff {clock : Nat × Nat × Nat} :
    clock? cs = some (clock, rest) ↔ TakesClock clock cs rest := by
  constructor
  · intro h
    obtain ⟨_, hhour, h⟩ := Option.bind_eq_some_iff.mp h
    obtain ⟨afterHour, hfirst, h⟩ := Option.bind_eq_some_iff.mp h
    obtain ⟨_, hminute, h⟩ := Option.bind_eq_some_iff.mp h
    obtain ⟨afterMinute, hcolon, h⟩ := Option.bind_eq_some_iff.mp h
    obtain ⟨_, hsecond, h⟩ := Option.bind_eq_some_iff.mp h
    obtain ⟨rfl, rfl⟩ := Prod.mk.inj (Option.some.inj h)
    refine ⟨afterHour, afterMinute, ?_, ?_, number?_eq_some_iff.mp hsecond⟩
    · rw [← expect?_eq_some_iff.mp hfirst]
      exact number?_eq_some_iff.mp hhour
    · rw [← expect?_eq_some_iff.mp hcolon]
      exact number?_eq_some_iff.mp hminute
  · rintro ⟨afterHour, afterMinute, hhour, hminute, hsecond⟩
    rw [clock?, number?_eq_some_iff.mpr hhour]
    simp only [Option.bind_eq_bind, Option.bind_some, expect?, if_true,
      number?_eq_some_iff.mpr hminute, number?_eq_some_iff.mpr hsecond]
    rfl

/-- The blanks between a date and a time of day are those before the hour. -/
theorem clock?_trimStart (cs : List Char) : clock? (Chars.trimStart cs) = clock? cs := by
  have hnumber : number? 2 (Chars.trimStart cs) = number? 2 cs := by
    unfold number?
    dsimp only
    rw [Chars.trimStart, Chars.trimStart, List.dropWhile_idempotent]
  rw [clock?, clock?, hnumber]

/-! ### Moments -/

theorem fields?_eq_some_iff {kind : Kind} {m : Moment} :
    fields? kind cs = some m ↔ Spells kind m cs := by
  constructor
  · intro h
    unfold fields? at h
    split at h
    next =>
      split at h
      next hdate =>
        obtain rfl := Option.some.inj h
        exact .date (date?_eq_some_iff.mp hdate)
      next => cases h
    next =>
      split at h
      next hclock =>
        obtain rfl := Option.some.inj h
        exact .time (clock?_eq_some_iff.mp hclock)
      next => cases h
    next =>
      split at h
      next hdate =>
        split at h
        next hclock =>
          obtain rfl := Option.some.inj h
          rw [clock?_trimStart] at hclock
          exact .timestamp (date?_eq_some_iff.mp hdate) (clock?_eq_some_iff.mp hclock)
        next => cases h
      next => cases h
    next => cases h
  · intro h
    cases h with
    | date h => simp only [fields?, date?_eq_some_iff.mpr h]
    | time h => simp only [fields?, clock?_eq_some_iff.mpr h]
    | timestamp hdate hclock =>
        simp only [fields?, date?_eq_some_iff.mpr hdate, clock?_trimStart,
          clock?_eq_some_iff.mpr hclock]

theorem read?_eq_some_iff {kind : Kind} {s : String} {m : Moment} :
    read? kind s = some m ↔ Spells kind m s.toList ∧ m.isValid := by
  rw [read?, Option.filter_eq_some_iff, fields?_eq_some_iff]

theorem Spells.exists_render? {kind : Kind} {m : Moment} (h : Spells kind m cs) :
    ∃ v, render? kind m = some v := by
  cases h with
  | date | time | timestamp => exact ⟨_, rfl⟩

/-- A text is read as the moment that it spells, provided that there is such a moment. It then
has a canonical form, which is read as the same moment and is its own canonical form, and another
text that is read has the same form exactly if it spells the same moment. A text that is not read
has none. -/
theorem canonical?_keeps_moment (kind : Kind) (s : String) :
    (∀ m, read? kind s = some m ↔ Spells kind m s.toList ∧ m.isValid) ∧
      (read? kind s = none → canonical? kind s = none) ∧
      ∀ m, read? kind s = some m → ∃ v, canonical? kind s = some v ∧
        read? kind v = some m ∧ canonical? kind v = some v ∧
        ∀ t m', read? kind t = some m' → (canonical? kind t = some v ↔ m' = m) := by
  refine ⟨fun _ => read?_eq_some_iff, fun hnone => ?_, fun m hm => ?_⟩
  · rw [canonical?, hnone, Option.bind_none]
  · obtain ⟨v, hv⟩ := (read?_eq_some_iff.mp hm).1.exists_render?
    have hcanonical : ∀ t, read? kind t = some m → canonical? kind t = some v := fun t ht => by
      rw [canonical?, ht, Option.bind_some, hv]
    obtain ⟨hread, hagain⟩ := read?_of_canonical? (hcanonical s hm)
    refine ⟨v, hcanonical s hm, hread.trans hm, hagain, fun t m' ht => ⟨fun hsame => ?_, ?_⟩⟩
    · -- Both texts are read as their common form is.
      have hboth : some m' = some m := calc
        some m' = read? kind t := ht.symm
        _ = read? kind v := (read?_of_canonical? hsame).1.symm
        _ = some m := hread.trans hm
      exact Option.some.inj hboth
    · rintro rfl
      exact hcanonical t ht

/-- A leap second of the year -5 in two spellings, the second one with nothing between the day
and the hour, and a moment that is a second earlier. -/
theorem canonical?_keeps_moment_spellings :
    canonical? .timestamp " -5-2-9\t 7:5:60" = some "-0005-02-09 07:05:60" ∧
      canonical? .timestamp "-0005-2-097:05:60" = some "-0005-02-09 07:05:60" ∧
      read? .timestamp "-0005-02-09 07:05:60" = some ⟨-5, 2, 9, 7, 5, 60⟩ ∧
      canonical? .timestamp "-5-2-9 7:5:59" ≠ some "-0005-02-09 07:05:60" ∧
      Spells .timestamp ⟨-5, 2, 9, 7, 5, 60⟩ " -5-2-9\t 7:5:60".toList := by
  obtain ⟨hform, hfirst, hsecond, hearlier⟩ :
      canonical? .timestamp " -5-2-9\t 7:5:60" = some "-0005-02-09 07:05:60" ∧
        read? .timestamp " -5-2-9\t 7:5:60" = some ⟨-5, 2, 9, 7, 5, 60⟩ ∧
        read? .timestamp "-0005-2-097:05:60" = some ⟨-5, 2, 9, 7, 5, 60⟩ ∧
        read? .timestamp "-5-2-9 7:5:59" = some ⟨-5, 2, 9, 7, 5, 59⟩ := by
    decide +kernel
  obtain ⟨hspells, _, hcanonical⟩ := canonical?_keeps_moment .timestamp " -5-2-9\t 7:5:60"
  obtain ⟨v, hv, hread, _, hsame⟩ := hcanonical _ hfirst
  obtain rfl := Option.some.inj (hv.symm.trans hform)
  refine ⟨hv, (hsame _ _ hsecond).mpr rfl, hread, fun h => ?_, ((hspells _).mp hfirst).1⟩
  exact absurd ((hsame _ _ hearlier).mp h) (by decide)

end Blueprint.Moment
