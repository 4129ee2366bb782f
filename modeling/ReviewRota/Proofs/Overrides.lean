import ReviewRota.Proofs.Grammar
import ReviewRota.Settings
import Mathlib.Algebra.Group.Nat.Defs

/-!
# ReviewRota.Proofs.Overrides

Which settings an environment gives, and what it is refused for.

A number is spelled by digits, perhaps with a plus sign in front and blanks around
(`Numeral`); how many zeros it starts with does not matter, only its value does.  The
numbers are looked at in a fixed order, and only then whether connections can be
opened under them: the first offence is the one that is reported (`FirstOffence`).

* `Settings.ofEnvironment_exactly` — every environment, and every way to write valid
  settings into one.
-/

namespace ReviewRota

open Json (Digits)

/-! ## Numerals -/

/-- A text that spells this number. -/
inductive Numeral (text : String) : Nat → Prop
  | intro {left sign digits right : List Char} (hleft : left.all isBlank = true)
      (hsign : sign = [] ∨ sign = ['+']) (hdigits : Digits digits)
      (hright : right.all isBlank = true)
      (htext : text.toList = left ++ (sign ++ digits) ++ right) :
      Numeral text (Nat.ofDigitChars 10 digits 0)

theorem digitsValue?_eq_some_iff {cs : List Char} {n : Nat} :
    digitsValue? cs = some n ↔ Digits cs ∧ Nat.ofDigitChars 10 cs 0 = n := by
  rw [digitsValue?, Option.ite_none_right_eq_some, Option.some_inj]
  refine and_congr_left fun _ => ?_
  rw [List.all_eq_true]
  exact ⟨fun h => ⟨h.1, h.2⟩, fun h => ⟨h.ne_nil, h.all⟩⟩

theorem unsignedValue?_eq_some_iff {cs : List Char} {n : Nat} :
    unsignedValue? cs = some n ↔ ∃ sign digits, (sign = [] ∨ sign = ['+']) ∧ Digits digits ∧
      cs = sign ++ digits ∧ Nat.ofDigitChars 10 digits 0 = n := by
  constructor
  · intro h
    unfold unsignedValue? at h
    split at h
    · obtain ⟨hdigits, hn⟩ := digitsValue?_eq_some_iff.mp h
      exact ⟨['+'], _, .inr rfl, hdigits, rfl, hn⟩
    · obtain ⟨hdigits, hn⟩ := digitsValue?_eq_some_iff.mp h
      exact ⟨[], _, .inl rfl, hdigits, rfl, hn⟩
  · rintro ⟨sign, digits, rfl | rfl, hdigits, rfl, hn⟩
    · have hvalue := digitsValue?_eq_some_iff.mpr ⟨hdigits, hn⟩
      cases cs with
      | nil => exact absurd rfl hdigits.ne_nil
      | cons c cs => rwa [unsignedValue?_of_isDigit (hdigits.all c List.mem_cons_self)]
    · exact digitsValue?_eq_some_iff.mpr ⟨hdigits, hn⟩

theorem isBlank_of_isDigit {c : Char} (h : c.isDigit = true) : isBlank c = false := by
  have hrange : 48 ≤ c.toNat ∧ c.toNat ≤ 57 := by
    simpa [Char.isDigit, UInt32.le_iff_toNat_le] using h
  simp only [isBlank, whiteSpaceRanges, List.any_cons, List.any_nil, Bool.or_false,
    Bool.or_eq_false_iff, Bool.and_eq_false_iff, decide_eq_false_iff_not]
  omega

theorem trim_eq_self {cs : List Char} (h : ∀ c ∈ cs, isBlank c = false) : trim cs = cs := by
  have hkept {cs : List Char} (h : ∀ c ∈ cs, isBlank c = false) : cs.dropWhile isBlank = cs := by
    cases cs with
    | nil => rfl
    | cons c cs => rw [List.dropWhile_cons, h c List.mem_cons_self]; rfl
  rw [trim, hkept h, trimEnd, hkept fun c hc => h c (List.mem_reverse.mp hc), List.reverse_reverse]

/-- A variable is read as what it spells, if that fits. -/
theorem readNat?_trim_eq_some_iff {limit : Nat} {text : String} {n : Nat} :
    readNat? limit (trim text.toList) = some n ↔ Numeral text n ∧ n < limit := by
  rw [readNat?, Option.filter_eq_some_iff, decide_eq_true_iff]
  refine and_congr_left fun _ => ?_
  rw [unsignedValue?_eq_some_iff]
  constructor
  · rintro ⟨sign, digits, hsign, hdigits, htrim, rfl⟩
    obtain ⟨left, right, hleft, hright, htext⟩ := exists_eq_trim text.toList
    rw [htrim] at htext
    exact .intro hleft hsign hdigits hright htext
  · rintro @⟨left, sign, digits, right, hleft, hsign, hdigits, hright, htext⟩
    have hcore : ∀ c ∈ sign ++ digits, isBlank c = false := by
      rw [List.forall_mem_append]
      refine ⟨?_, fun c hc => isBlank_of_isDigit (hdigits.all c hc)⟩
      rcases hsign with rfl | rfl
      · exact List.forall_mem_nil _
      · simp [isBlank, whiteSpaceRanges]
    have htrim : trim text.toList = sign ++ digits := by
      rw [htext, trim_append_of_blank_right _ hright, trim_append_of_blank_left hleft,
        trim_eq_self hcore]
    exact ⟨sign, digits, hsign, hdigits, htrim, rfl⟩

/-! ## Numbers -/

/-- A setting that is a number, with its variable and its size. -/
structure NumberSetting where
  var : Variable
  bits : Nat
  value : Settings → Nat

namespace NumberSetting

def maxConnections : NumberSetting := ⟨.maxConnections, 32, Settings.maxConnections⟩

def minConnections : NumberSetting := ⟨.minConnections, 32, Settings.minConnections⟩

def acquireTimeout : NumberSetting := ⟨.acquireTimeout, 64, Settings.acquireTimeout⟩

def busyTimeout : NumberSetting := ⟨.busyTimeout, 64, Settings.busyTimeout⟩

/-- The settings that are numbers, in the order in which they are read. -/
def all : List NumberSetting := [maxConnections, minConnections, acquireTimeout, busyTimeout]

variable {k : NumberSetting} {env : Environment}

/-- The text spells a number of the size of the setting. -/
def Accepts (k : NumberSetting) (text : String) : Prop := ∃ n, Numeral text n ∧ n < 2 ^ k.bits

/-- The number that an environment gives: what the variable spells, or else the default. -/
inductive Gives (k : NumberSetting) (env : Environment) : Nat → Prop
  | unset (hunset : env k.var.name = none) : Gives k env (k.value {})
  | set {text : String} {n : Nat} (hset : env k.var.name = some text)
      (hspells : Numeral text n) (hfits : n < 2 ^ k.bits) : Gives k env n

/-- The number as it is read. -/
def read (k : NumberSetting) (env : Environment) : Except Error Nat :=
  env.number k.var k.bits (k.value {})

theorem Gives.read_eq {n : Nat} (h : k.Gives env n) : k.read env = .ok n := by
  cases h with
  | unset hunset => simp only [read, Environment.number, hunset]
  | set hset hspells hfits =>
      have hread := readNat?_trim_eq_some_iff.mpr ⟨hspells, hfits⟩
      simp only [read, Environment.number, hset, Nat.pow_eq, hread]

theorem read_eq_ok_iff {n : Nat} : k.read env = .ok n ↔ k.Gives env n := by
  refine ⟨fun h => ?_, Gives.read_eq⟩
  unfold read Environment.number at h
  split at h
  · rename_i hunset
    cases h
    exact .unset hunset
  · rename_i text hset
    split at h
    · rename_i m hread
      cases h
      obtain ⟨hspells, hfits⟩ := readNat?_trim_eq_some_iff.mp hread
      exact .set hset hspells hfits
    · cases h

theorem Gives.unique {n m : Nat} (hn : k.Gives env n) (hm : k.Gives env m) : n = m :=
  Except.ok.inj (hn.read_eq.symm.trans hm.read_eq)

theorem exists_gives_iff :
    (∃ n, k.Gives env n) ↔ ∀ text, env k.var.name = some text → k.Accepts text := by
  constructor
  · rintro ⟨n, hunset | ⟨hset, hspells, hfits⟩⟩ text htext
    · cases hunset.symm.trans htext
    · cases hset.symm.trans htext
      exact ⟨n, hspells, hfits⟩
  · intro h
    cases hset : env k.var.name with
    | none => exact ⟨_, .unset hset⟩
    | some text =>
        obtain ⟨n, hspells, hfits⟩ := h text hset
        exact ⟨n, .set hset hspells hfits⟩

theorem read_eq_error {text : String} (hset : env k.var.name = some text)
    (hbad : ¬k.Accepts text) :
    k.read env =
      .error (.invalidInput ("cannot parse '" ++ text ++ "'") (some k.var.name)) := by
  have hread : readNat? (2 ^ k.bits) (trim text.toList) = none := by
    refine Option.eq_none_iff_forall_ne_some.mpr fun n hn => hbad ?_
    exact ⟨n, readNat?_trim_eq_some_iff.mp hn⟩
  simp only [read, Environment.number, hset, Nat.pow_eq, hread]

end NumberSetting

/-! ## Settings -/

/-- What an environment is refused for: the first variable that spells no number, or else
that no connection could be opened. -/
inductive FirstOffence (env : Environment) : Error → Prop
  | unreadable {before after : List NumberSetting} {k : NumberSetting} {text : String}
      (hsplit : NumberSetting.all = before ++ k :: after)
      (hbefore : ∀ earlier ∈ before, ∃ n, earlier.Gives env n)
      (hset : env k.var.name = some text) (hbad : ¬k.Accepts text) :
      FirstOffence env (.invalidInput ("cannot parse '" ++ text ++ "'") (some k.var.name))
  | noConnection (hall : ∀ k ∈ NumberSetting.all, ∃ n, k.Gives env n)
      (hmax : NumberSetting.maxConnections.Gives env 0) :
      FirstOffence env
        (.invalidInput "must be at least 1" (some Variable.maxConnections.name))
  | aboveMax {max min : Nat} (hall : ∀ k ∈ NumberSetting.all, ∃ n, k.Gives env n)
      (hmax : NumberSetting.maxConnections.Gives env max) (hone : 1 ≤ max)
      (hmin : NumberSetting.minConnections.Gives env min) (habove : max < min) :
      FirstOffence env
        (.invalidInput "must not exceed max_connections" (some Variable.minConnections.name))

namespace Settings

theorem validate_eq_ok_iff {s : Settings} :
    s.validate = .ok () ↔ 1 ≤ s.maxConnections ∧ s.minConnections ≤ s.maxConnections := by
  unfold validate
  split
  · rename_i hzero
    exact ⟨nofun, fun h => absurd hzero (by omega)⟩
  · split
    · rename_i habove
      exact ⟨nofun, fun h => absurd habove (by omega)⟩
    · exact ⟨fun _ => by omega, fun _ => rfl⟩

/-- The settings that an environment gives. -/
structure GivenBy (env : Environment) (s : Settings) : Prop where
  path : s.path = (env Variable.path.name).getD "review-assign.db"
  numbers : ∀ k ∈ NumberSetting.all, k.Gives env (k.value s)
  atLeastOne : 1 ≤ s.maxConnections
  notAbove : s.minConnections ≤ s.maxConnections

section

variable {env : Environment}

/-- The numbers are read one after the other, and then they are checked together. -/
theorem ofEnvironment_eq (env : Environment) :
    ofEnvironment env = (do
      let max ← NumberSetting.maxConnections.read env
      let min ← NumberSetting.minConnections.read env
      let acquire ← NumberSetting.acquireTimeout.read env
      let busy ← NumberSetting.busyTimeout.read env
      let s : Settings :=
        ⟨(env Variable.path.name).getD "review-assign.db", max, min, acquire, busy⟩
      s.validate
      return s) := rfl

theorem ofEnvironment_of_numbers {s : Settings}
    (hpath : s.path = (env Variable.path.name).getD "review-assign.db")
    (hnumbers : ∀ k ∈ NumberSetting.all, k.Gives env (k.value s)) :
    ofEnvironment env = (do s.validate; return s) := by
  simp only [NumberSetting.all, List.forall_mem_cons] at hnumbers
  obtain ⟨hmax, hmin, hacquire, hbusy, -⟩ := hnumbers
  rw [ofEnvironment_eq, hmax.read_eq, hmin.read_eq, hacquire.read_eq, hbusy.read_eq, ← hpath]
  rfl

/-- There are settings with the numbers of an environment in which all can be read. -/
theorem exists_numbers (hall : ∀ k ∈ NumberSetting.all, ∃ n, k.Gives env n) :
    ∃ s : Settings, s.path = (env Variable.path.name).getD "review-assign.db" ∧
      ∀ k ∈ NumberSetting.all, k.Gives env (k.value s) := by
  simp only [NumberSetting.all, List.forall_mem_cons] at hall ⊢
  obtain ⟨⟨max, hmax⟩, ⟨min, hmin⟩, ⟨acquire, hacquire⟩, ⟨busy, hbusy⟩, -⟩ := hall
  exact ⟨⟨_, max, min, acquire, busy⟩, rfl, hmax, hmin, hacquire, hbusy, List.forall_mem_nil _⟩

theorem GivenBy.ofEnvironment_eq_ok {s : Settings} (h : s.GivenBy env) :
    ofEnvironment env = .ok s := by
  rw [ofEnvironment_of_numbers h.path h.numbers,
    validate_eq_ok_iff.mpr ⟨h.atLeastOne, h.notAbove⟩]
  rfl

theorem ofEnvironment_eq_error {e : Error} (h : FirstOffence env e) :
    ofEnvironment env = .error e := by
  cases h with
  | @unreadable before after k text hsplit hbefore hset hbad =>
      have hread := NumberSetting.read_eq_error hset hbad
      have hok : ∀ earlier ∈ before, ∃ n, earlier.read env = .ok n := fun earlier hearlier =>
        (hbefore earlier hearlier).imp fun _ h => h.read_eq
      rw [ofEnvironment_eq]
      -- one case for each place that the first unreadable number can have
      rcases before with _ | ⟨first, _ | ⟨second, _ | ⟨third, _ | ⟨fourth, rest⟩⟩⟩⟩ <;>
        simp only [NumberSetting.all, List.cons_append, List.nil_append, List.cons.injEq] at hsplit
      · obtain ⟨rfl, -⟩ := hsplit
        rw [hread]
        rfl
      · obtain ⟨rfl, rfl, -⟩ := hsplit
        obtain ⟨⟨max, hmax⟩, -⟩ := List.forall_mem_cons.mp hok
        rw [hmax, hread]
        rfl
      · obtain ⟨rfl, rfl, rfl, -⟩ := hsplit
        simp only [List.forall_mem_cons] at hok
        obtain ⟨⟨max, hmax⟩, ⟨min, hmin⟩, -⟩ := hok
        rw [hmax, hmin, hread]
        rfl
      · obtain ⟨rfl, rfl, rfl, rfl, -⟩ := hsplit
        simp only [List.forall_mem_cons] at hok
        obtain ⟨⟨max, hmax⟩, ⟨min, hmin⟩, ⟨acquire, hacquire⟩, -⟩ := hok
        rw [hmax, hmin, hacquire, hread]
        rfl
      · exact absurd hsplit.2.2.2.2 (by simp)
  | noConnection hall hmax =>
      obtain ⟨s, hpath, hnumbers⟩ := exists_numbers hall
      have hzero : s.maxConnections = 0 := (hnumbers .maxConnections (.head _)).unique hmax
      rw [ofEnvironment_of_numbers hpath hnumbers, validate, if_pos hzero]
      rfl
  | aboveMax hall hmax hone hmin habove =>
      obtain ⟨s, hpath, hnumbers⟩ := exists_numbers hall
      obtain rfl : s.maxConnections = _ := (hnumbers .maxConnections (.head _)).unique hmax
      obtain rfl : s.minConnections = _ :=
        (hnumbers .minConnections (.tail _ (.head _))).unique hmin
      rw [ofEnvironment_of_numbers hpath hnumbers, validate, if_neg (by omega), if_pos habove]
      rfl

/-- Every environment gives settings or an offence. -/
theorem exists_givenBy_or_firstOffence (env : Environment) :
    (∃ s : Settings, s.GivenBy env) ∨ ∃ e, FirstOffence env e := by
  classical
  cases hfirst : NumberSetting.all.find? fun k => ¬∃ n, k.Gives env n with
  | some k =>
      obtain ⟨hk, before, after, hsplit, hbefore⟩ := List.find?_eq_some_iff_append.mp hfirst
      have hbad := of_decide_eq_true hk
      rw [NumberSetting.exists_gives_iff] at hbad
      obtain ⟨text, hbad⟩ := Classical.not_forall.mp hbad
      obtain ⟨hset, hrefused⟩ := Classical.not_imp.mp hbad
      refine .inr ⟨_, .unreadable hsplit (fun earlier hearlier => ?_) hset hrefused⟩
      simpa using hbefore earlier hearlier
  | none =>
      have hall : ∀ k ∈ NumberSetting.all, ∃ n, k.Gives env n := fun k hk => by
        simpa using List.find?_eq_none.mp hfirst k hk
      obtain ⟨s, hpath, hnumbers⟩ := exists_numbers hall
      have hmax : NumberSetting.maxConnections.Gives env s.maxConnections :=
        hnumbers .maxConnections (.head _)
      have hmin : NumberSetting.minConnections.Gives env s.minConnections :=
        hnumbers .minConnections (.tail _ (.head _))
      rcases Nat.eq_zero_or_pos s.maxConnections with hzero | hone
      · rw [hzero] at hmax
        exact .inr ⟨_, .noConnection hall hmax⟩
      · by_cases habove : s.maxConnections < s.minConnections
        · exact .inr ⟨_, .aboveMax hall hmax hone hmin habove⟩
        · exact .inl ⟨s, hpath, hnumbers, hone, by omega⟩

end

/-- What an environment gives. -/
structure ExactlyFrom (env : Environment) : Prop where
  /-- The settings have for each number what its variable spells or its default, and the
  path as it stands. -/
  given : ∀ s, ofEnvironment env = .ok s ↔ s.GivenBy env
  /-- All else is refused for the first offence. -/
  refused : ∀ e, ofEnvironment env = .error e ↔ FirstOffence env e
  succeeds : (∃ s, ofEnvironment env = .ok s) ↔
    (∀ k ∈ NumberSetting.all, ∀ text, env k.var.name = some text → k.Accepts text) ∧
      ∀ max min, NumberSetting.maxConnections.Gives env max →
        NumberSetting.minConnections.Gives env min → 1 ≤ max ∧ min ≤ max
  validated : ∀ s, ofEnvironment env = .ok s → s.validate = .ok ()

theorem exactlyFrom (env : Environment) : ExactlyFrom env := by
  -- there is one answer: whichever of the two the environment has, it is the answer
  have hgiven (s : Settings) : ofEnvironment env = .ok s ↔ s.GivenBy env := by
    refine ⟨fun h => ?_, GivenBy.ofEnvironment_eq_ok⟩
    obtain ⟨s', hs'⟩ | ⟨e, he⟩ := exists_givenBy_or_firstOffence env
    · cases h.symm.trans hs'.ofEnvironment_eq_ok
      exact hs'
    · cases h.symm.trans (ofEnvironment_eq_error he)
  have hrefused (e : Error) : ofEnvironment env = .error e ↔ FirstOffence env e := by
    refine ⟨fun h => ?_, ofEnvironment_eq_error⟩
    obtain ⟨s, hs⟩ | ⟨e', he'⟩ := exists_givenBy_or_firstOffence env
    · cases h.symm.trans hs.ofEnvironment_eq_ok
    · cases h.symm.trans (ofEnvironment_eq_error he')
      exact he'
  refine ⟨hgiven, hrefused, ?_, fun s h => ?_⟩
  · simp only [hgiven]
    constructor
    · rintro ⟨s, hs⟩
      refine ⟨fun k hk => NumberSetting.exists_gives_iff.mp ⟨_, hs.numbers k hk⟩, ?_⟩
      intro max min hmax hmin
      obtain rfl := (hs.numbers .maxConnections (.head _)).unique hmax
      obtain rfl := (hs.numbers .minConnections (.tail _ (.head _))).unique hmin
      exact ⟨hs.atLeastOne, hs.notAbove⟩
    · rintro ⟨haccepts, hchecked⟩
      obtain ⟨s, hpath, hnumbers⟩ := exists_numbers fun k hk =>
        NumberSetting.exists_gives_iff.mpr (haccepts k hk)
      obtain ⟨hone, hnotAbove⟩ := hchecked s.maxConnections s.minConnections
        (hnumbers .maxConnections (.head _)) (hnumbers .minConnections (.tail _ (.head _)))
      exact ⟨s, hpath, hnumbers, hone, hnotAbove⟩
  · obtain hs := (hgiven s).mp h
    exact validate_eq_ok_iff.mpr ⟨hs.atLeastOne, hs.notAbove⟩

/-- The environment has the path as it stands and the numbers in decimal, with any blanks
around them. -/
structure WrittenTo (s : Settings) (env : Environment) : Prop where
  path : env Variable.path.name = some s.path
  numbers : ∀ k ∈ NumberSetting.all, ∃ left right : List Char, left.all isBlank = true ∧
    right.all isBlank = true ∧
      env k.var.name = some (String.ofList (left ++ Nat.toDigits 10 (k.value s) ++ right))

theorem numeral_toDigits (n : Nat) {left right : List Char} (hleft : left.all isBlank = true)
    (hright : right.all isBlank = true) :
    Numeral (String.ofList (left ++ Nat.toDigits 10 n ++ right)) n := by
  have hdigits : Digits (Nat.toDigits 10 n) :=
    ⟨Nat.toDigits_ne_nil, fun _ => Nat.isDigit_of_mem_toDigits (by decide) (by decide)⟩
  have hnumeral : Numeral (String.ofList (left ++ Nat.toDigits 10 n ++ right)) _ :=
    .intro hleft (.inl rfl) hdigits hright String.toList_ofList
  rwa [Nat.ofDigitChars_ten_toDigits] at hnumeral

theorem WrittenTo.givenBy {env : Environment} {s : Settings} (h : s.WrittenTo env)
    (hvalid : s.validate = .ok ()) (hfits : ∀ k ∈ NumberSetting.all, k.value s < 2 ^ k.bits) :
    s.GivenBy env := by
  obtain ⟨hone, hnotAbove⟩ := validate_eq_ok_iff.mp hvalid
  refine ⟨?_, fun k hk => ?_, hone, hnotAbove⟩
  · rw [h.path]
    rfl
  · obtain ⟨left, right, hleft, hright, hset⟩ := h.numbers k hk
    exact .set hset (numeral_toDigits _ hleft hright) (hfits k hk)

/-- A variable is set to a text if it is set to the bytes of that text. -/
theorem ofBytes_eq_some_iff {bytes : String → Option ByteArray} {name text : String} :
    Environment.ofBytes bytes name = some text ↔ bytes name = some text.toUTF8 := by
  rw [Environment.ofBytes, Option.bind_eq_some_iff]
  constructor
  · rintro ⟨b, hb, htext⟩
    rw [String.fromUTF8?] at htext
    split at htext
    · cases htext
      exact hb
    · cases htext
  · intro h
    refine ⟨text.toUTF8, h, ?_⟩
    rw [String.fromUTF8?, dif_pos (show text.toUTF8.IsValidUTF8 from text.isValidUTF8)]
    rfl

/-- **Overrides**: every environment gives exactly the settings that its variables spell,
or is refused for its first offence; and valid settings are read back from every
environment that they are written to. -/
theorem ofEnvironment_exactly :
    (∀ env : Environment, ExactlyFrom env) ∧
      (∀ (s : Settings) (env : Environment), s.validate = .ok () →
        (∀ k ∈ NumberSetting.all, k.value s < 2 ^ k.bits) → s.WrittenTo env →
          ofEnvironment env = .ok s) ∧
      ∀ (bytes : String → Option ByteArray) (name text : String),
        Environment.ofBytes bytes name = some text ↔ bytes name = some text.toUTF8 := by
  refine ⟨exactlyFrom, fun s env hvalid hfits hwritten => ?_, fun _ _ _ => ofBytes_eq_some_iff⟩
  exact (hwritten.givenBy hvalid hfits).ofEnvironment_eq_ok

/-- The largest numbers among blanks are read back, and a least number is refused that is
above the default it comes with. -/
theorem ofEnvironment_exactly_extremes :
    let large : Settings := ⟨" a b ", 4294967295, 0, 18446744073709551615, 0⟩
    let written : Environment := fun name =>
      if name = Variable.path.name then some " a b "
      else if name = Variable.maxConnections.name then some "\u3000 4294967295\n"
      else if name = Variable.minConnections.name then some "0"
      else if name = Variable.acquireTimeout.name then some "\t18446744073709551615"
      else some "0 "
    let least : Environment := fun name =>
      if name = Variable.minConnections.name then some " +006" else none
    (large.validate = .ok () ∧ (∀ k ∈ NumberSetting.all, k.value large < 2 ^ k.bits) ∧
      large.WrittenTo written ∧ ofEnvironment written = .ok large) ∧
    ofEnvironment least = .error
      (.invalidInput "must not exceed max_connections" (some Variable.minConnections.name)) := by
  intro large written least
  have hfits : ∀ k ∈ NumberSetting.all, k.value large < 2 ^ k.bits := by
    simp only [NumberSetting.all, List.forall_mem_cons]
    exact ⟨by decide, by decide, by decide, by decide, List.forall_mem_nil _⟩
  have hwritten : large.WrittenTo written := by
    refine ⟨by decide, ?_⟩
    simp only [NumberSetting.all, List.forall_mem_cons]
    exact ⟨⟨['\u3000', ' '], ['\n'], by decide, by decide, by decide +kernel⟩,
      ⟨[], [], rfl, rfl, by decide +kernel⟩, ⟨['\t'], [], by decide, rfl, by decide +kernel⟩,
      ⟨[], [' '], rfl, by decide, by decide +kernel⟩, List.forall_mem_nil _⟩
  have hnumeral : Numeral " +006" 6 := by
    have hleft : [' '].all isBlank = true := by decide
    have hdigits : Digits ['0', '0', '6'] :=
      ⟨List.cons_ne_nil _ _, List.all_eq_true.mp (by decide : ['0', '0', '6'].all Char.isDigit = true)⟩
    have hright : [].all isBlank = true := rfl
    exact .intro hleft (.inr rfl) hdigits hright (by decide)
  have hmin : NumberSetting.minConnections.Gives least 6 := .set rfl hnumeral (by decide)
  have hall : ∀ k ∈ NumberSetting.all, ∃ n, k.Gives least n := by
    simp only [NumberSetting.all, List.forall_mem_cons]
    exact ⟨⟨_, .unset (by decide)⟩, ⟨6, hmin⟩, ⟨_, .unset (by decide)⟩, ⟨_, .unset (by decide)⟩,
      List.forall_mem_nil _⟩
  obtain ⟨hexactly, hback, -⟩ := ofEnvironment_exactly
  refine ⟨⟨rfl, hfits, hwritten, hback large written rfl hfits hwritten⟩, ?_⟩
  exact ((hexactly least).refused _).mpr
    (.aboveMax hall (.unset (by decide)) (by decide) hmin (by decide))

end Settings

end ReviewRota
