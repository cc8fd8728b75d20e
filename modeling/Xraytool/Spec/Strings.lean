import Mathlib.Algebra.Group.Int.Defs
import Xraytool.Spec.Unicode

/-! The functions of Go's `strings` and `strconv` packages that the model needs, over the characters of a string. -/

namespace Xraytool

def trimLeft (cs : List Char) : List Char := cs.dropWhile isSpace

def trimChars (cs : List Char) : List Char := (trimLeft (trimLeft cs).reverse).reverse

def trimSpace (s : String) : String := String.ofList (trimChars s.toList)

variable {cs : List Char} {s : String}

theorem trimLeft_eq_self (h : ∀ c ∈ cs.head?, isSpace c = false) : trimLeft cs = cs := by
  cases cs with
  | nil => rfl
  | cons c cs => simp [trimLeft, h c rfl]

theorem trimLeft_head (cs : List Char) : ∀ c ∈ (trimLeft cs).head?, isSpace c = false := by
  induction cs with
  | nil => simp [trimLeft]
  | cons c cs ih =>
    unfold trimLeft at ih ⊢
    rw [List.dropWhile_cons]
    split_ifs with hc
    · exact ih
    · simpa using hc

/-- Cutting spaces off the end leaves the first character, unless nothing is left. -/
theorem trimLeft_reverse_head (h : ∀ c ∈ cs.head?, isSpace c = false) :
    ∀ c ∈ (trimLeft cs.reverse).reverse.head?, isSpace c = false := by
  intro c hc
  obtain ⟨suffix, hs⟩ := List.dropWhile_suffix isSpace (l := cs.reverse)
  have hcs : cs = (trimLeft cs.reverse).reverse ++ suffix.reverse := by
    rw [← List.reverse_append, trimLeft, hs, List.reverse_reverse]
  cases hl : (trimLeft cs.reverse).reverse with
  | nil => simp [hl] at hc
  | cons a l =>
    rw [hl] at hc hcs
    rw [hcs] at h
    obtain rfl : a = c := by simpa using hc
    exact h a (by simp)

theorem trimChars_idem (cs : List Char) : trimChars (trimChars cs) = trimChars cs := by
  have hhead := trimLeft_reverse_head (trimLeft_head cs)
  have hback := trimLeft_head (trimLeft cs).reverse
  unfold trimChars at *
  rw [trimLeft_eq_self hhead, List.reverse_reverse, trimLeft_eq_self hback]

theorem trimSpace_idem : trimSpace (trimSpace s) = trimSpace s := by
  rw [trimSpace, trimSpace, String.toList_ofList, trimChars_idem]

example : trimSpace " \t node-1 \n" = "node-1" := by decide

def toUpper (s : String) : String := String.ofList (s.toList.map upperRune)

def toLower (s : String) : String := String.ofList (s.toList.map lowerRune)

def foldCase (s : String) : String := String.ofList (s.toList.map foldRune)

def equalFold (a b : String) : Bool := foldCase a == foldCase b

theorem trimSpace_map {f : Char → Char} (hf : ∀ c, isSpace (f c) = isSpace c) :
    trimSpace (String.ofList (s.toList.map f)) = String.ofList ((trimSpace s).toList.map f) := by
  have hleft (cs : List Char) : trimLeft (cs.map f) = (trimLeft cs).map f := by
    rw [trimLeft, List.dropWhile_map, show isSpace ∘ f = isSpace from funext hf, ← trimLeft]
  rw [trimSpace, String.toList_ofList, trimChars, hleft, ← List.map_reverse, hleft, ← List.map_reverse, ← trimChars,
    trimSpace, String.toList_ofList]

theorem trimSpace_toUpper : trimSpace (toUpper s) = toUpper (trimSpace s) := trimSpace_map isSpace_upperRune

theorem toUpper_eq_empty : toUpper s = "" ↔ s = "" := by
  rw [toUpper, ← String.toList_inj, String.toList_ofList, ← String.toList_inj]
  exact List.map_eq_nil_iff

/-- `strings.Split` with a separator of one character. -/
def splitChar (s : String) (sep : Char) : List String := (s.toList.splitOn sep).map String.ofList

/-- `strings.HasPrefix`, the text first. -/
def hasPrefix (s start : String) : Bool := start.toList.isPrefixOf s.toList

/-- `strings.HasSuffix`, the text first. -/
def hasSuffix (s ending : String) : Bool := ending.toList.isSuffixOf s.toList

/-- The text around the first occurrence of `pat`, found as `strings.Index` finds it. -/
def cut (pat : List Char) : List Char → Option (List Char × List Char)
  | [] => if pat = [] then some ([], []) else none
  | c :: cs =>
    if pat.isPrefixOf (c :: cs) then some ([], (c :: cs).drop pat.length)
    else (cut pat cs).map fun (before, after) => (c :: before, after)

def contains (s pat : String) : Bool := (cut pat.toList s.toList).isSome

/-- `strings.NewReplacer` on characters: at each position the first pair whose key matches is replaced, and
`skip` characters of a key just replaced are passed over. The keys are not empty. -/
def replaceFrom (pairs : List (List Char × List Char)) : Nat → List Char → List Char
  | _, [] => []
  | skip + 1, _ :: cs => replaceFrom pairs skip cs
  | 0, c :: cs => match pairs.find? fun pair => pair.1.isPrefixOf (c :: cs) with
    | some (key, value) => value ++ replaceFrom pairs (key.length - 1) cs
    | none => c :: replaceFrom pairs 0 cs

def newReplacer (pairs : List (String × String)) (s : String) : String :=
  String.ofList (replaceFrom (pairs.map fun (key, value) => (key.toList, value.toList)) 0 s.toList)

def replaceAll (s old new : String) : String := newReplacer [(old, new)] s

example : replaceAll "a+b++" "+" "%20" = "a%20b%20%20" := by decide
example : newReplacer [("<A>", "<B>"), ("<B>", "x")] "<A><B><" = "<B>x<" := by decide

/-- `url.QueryEscape`: the bytes of all but the unreserved characters in hexadecimal, a space as `+`. -/
def queryEscape (s : String) : String :=
  let unreserved (c : Char) : Bool := c.isAlphanum || c == '-' || c == '_' || c == '.' || c == '~'
  let hex (b : UInt8) : List Char := '%' :: (toUpper (String.ofList
    ((if b < 16 then ['0'] else []) ++ Nat.toDigits 16 b.toNat))).toList
  String.ofList (s.toList.flatMap fun c =>
    if unreserved c then [c] else if c = ' ' then ['+'] else (String.utf8EncodeChar c).flatMap hex)

example : queryEscape "a b\u044f\n" = "a+b%D1%8F%0A" := by decide

/-- `http.CanonicalHeaderKey`: a capital at the start and after each hyphen, unless the key holds a character
that no header field name may have. -/
def canonicalHeaderKey (key : String) : String :=
  let token (c : Char) : Bool := c.isAlphanum || "!#$%&'*+-.^_\x60|~".toList.contains c
  let capitalize : Bool × List Char → Char → Bool × List Char := fun (upper, out) c =>
    (c == '-', out ++ [if upper then c.toUpper else c.toLower])
  if key.toList.all token then String.ofList (key.toList.foldl capitalize (true, [])).2 else key

example : canonicalHeaderKey "profile-web-PAGE-url" = "Profile-Web-Page-Url" := by decide

/-- The verb `%q` of `fmt`; characters that are not printable are only escaped where they have a short form. -/
def quoted (s : String) : String :=
  let escape (c : Char) : List Char :=
    if c = '"' ∨ c = '\\' then ['\\', c] else if c = '\n' then ['\\', 'n'] else if c = '\t' then ['\\', 't']
    else if c = '\r' then ['\\', 'r'] else [c]
  String.ofList ('"' :: s.toList.flatMap escape ++ ['"'])

/-- The value of a string of decimal digits; `none` on any other character. -/
def decimal : List Char → Option Nat :=
  List.foldl (fun acc c => acc.bind fun n => if c.isDigit then some (10 * n + (c.toNat - '0'.toNat)) else none)
    (some 0)

/-- `strconv.ParseInt(s, 10, 64)` with the error dropped: 0 on a syntax error, the nearest bound of int64 on
a value out of range. -/
def parseInt64 (s : String) : Int :=
  let clamp (n : Int) : Int := max (-2 ^ 63) (min n (2 ^ 63 - 1))
  let value (digits : List Char) : Int := if digits = [] then 0 else (decimal digits).getD 0
  match s.toList with
  | '-' :: digits => clamp (-value digits)
  | '+' :: digits => clamp (value digits)
  | digits => clamp (value digits)

example : parseInt64 "-42" = -42 ∧ parseInt64 "4x" = 0 ∧ parseInt64 "9999999999999999999" = 2 ^ 63 - 1 := by decide

theorem decimal_snoc {n d : Nat} (h : decimal cs = some n) (hd : d < 10) :
    decimal (cs ++ [d.digitChar]) = some (10 * n + d) := by
  have hdigits : ∀ d < 10, d.digitChar.isDigit = true ∧ d.digitChar.toNat - '0'.toNat = d := by decide
  obtain ⟨hdigit, hvalue⟩ := hdigits d hd
  unfold decimal at h ⊢
  rw [List.foldl_append, h]
  simp only [List.foldl_cons, List.foldl_nil, Option.bind_some, if_pos hdigit, hvalue]

theorem decimal_toDigits (n : Nat) : decimal (Nat.toDigits 10 n) = some n := by
  induction n using Nat.strongRecOn with
  | _ n ih =>
    rw [Nat.toDigits_eq_if (by omega)]
    split_ifs with h
    · have hsingle := decimal_snoc (n := 0) (show decimal [] = some 0 from rfl) h
      rwa [List.nil_append, Nat.mul_zero, Nat.zero_add] at hsingle
    · rw [decimal_snoc (ih (n / 10) (by omega)) (by omega)]
      congr 1
      omega

theorem parseInt64_toString {n : Int} (hlow : -2 ^ 63 ≤ n) (hhigh : n < 2 ^ 63) : parseInt64 (toString n) = n := by
  have hvalue (m : Nat) : (decimal (Nat.toDigits 10 m)).getD 0 = m := by rw [decimal_toDigits]; rfl
  rw [Int.toString_eq_repr, Int.repr_eq_if, parseInt64]
  split_ifs with hpos
  · rw [Nat.toList_repr]
    -- the text begins with a digit, so it has no sign
    have hdigit (c : Char) (cs : List Char) (h : Nat.toDigits 10 n.toNat = c :: cs) : c.isDigit = true :=
      Nat.isDigit_of_mem_toDigits (by omega) (by omega) (h ▸ List.mem_cons_self)
    split
    · rename_i h
      exact absurd (hdigit _ _ h) (by decide)
    · rename_i h
      exact absurd (hdigit _ _ h) (by decide)
    · dsimp only
      rw [if_neg Nat.toDigits_ne_nil, hvalue]
      omega
  · rw [String.toList_append, Nat.toList_repr]
    change max (-2 ^ 63) (min (-(if Nat.toDigits 10 (-n).toNat = [] then 0
      else ((decimal (Nat.toDigits 10 (-n).toNat)).getD 0 : Int))) (2 ^ 63 - 1)) = n
    rw [if_neg Nat.toDigits_ne_nil, hvalue]
    omega

/-- `strconv.ParseInt(s, 10, 64)`; `none` is an error, of the syntax or of the range. -/
def parseInt (s : String) : Option Int :=
  let inRange (n : Int) : Option Int := if -2 ^ 63 ≤ n ∧ n < 2 ^ 63 then some n else none
  let value (digits : List Char) : Option Nat := if digits = [] then none else decimal digits
  match s.toList with
  | '-' :: digits => (value digits).bind fun n => inRange (-n)
  | '+' :: digits => (value digits).bind fun n => inRange n
  | digits => (value digits).bind fun n => inRange n

end Xraytool
