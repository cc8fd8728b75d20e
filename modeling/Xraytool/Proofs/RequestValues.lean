import Mathlib
import Xraytool.Spec.Template

/-! Two values read from a request. The token of a client is searched at its first occurrence in the user agent only,
and a hardware id loses every letter beyond `f` when its other digits have the length of a fingerprint. -/

namespace Xraytool.Delivery

open List Char

/-! ### The token of a client -/

section

variable {pat cs before after : List Char} {uaLower token : String}

/-- The first occurrence of a text in another. -/
def First (pat cs before after : List Char) : Prop :=
  cs = before ++ pat ++ after ∧ ∀ before' after', cs = before' ++ pat ++ after' → before.length ≤ before'.length

def isWordChar (c : Char) : Bool := ('a' ≤ c && c ≤ 'z') || ('0' ≤ c && c ≤ '9')

def StandsAlone (before after : List Char) : Prop :=
  (∀ c ∈ before.getLast?, isWordChar c = false) ∧ ∀ c ∈ after.head?, isWordChar c = false

theorem cut_cases (pat cs : List Char) : (cut pat cs = none ∧ ∀ before after, cs ≠ before ++ pat ++ after) ∨
    ∃ before after, cut pat cs = some (before, after) ∧ First pat cs before after := by
  induction cs with
  | nil =>
    rw [cut]
    split_ifs with hpat
    · exact .inr ⟨[], [], rfl, by simp [hpat], by simp⟩
    · exact .inl ⟨rfl, fun before after h => by simp [hpat] at h⟩
  | cons c cs ih =>
    rw [cut]
    split_ifs with hpre
    · obtain ⟨after, hafter⟩ := isPrefixOf_iff_prefix.1 hpre
      exact .inr ⟨[], after, by simp [← hafter], hafter.symm, by simp⟩
    -- an occurrence does not start here, so it is one in the rest
    have hrest {before after} (h : c :: cs = before ++ pat ++ after) :
        ∃ before', before = c :: before' ∧ cs = before' ++ pat ++ after := by
      rcases before with _ | ⟨c', before'⟩
      · exact absurd ( isPrefixOf_iff_prefix.2 ⟨after, h.symm⟩) hpre
      · obtain ⟨rfl, hcs⟩ := cons.inj h
        exact ⟨before', rfl, hcs⟩
    rcases ih with ⟨hno, hne⟩ | ⟨before, after, hsome, rfl, hmin⟩
    · refine .inl ⟨by rw [hno]; rfl, fun before after h => ?_⟩
      obtain ⟨before', -, hcs⟩ := hrest h
      exact hne before' after hcs
    · refine .inr ⟨c :: before, after, by rw [hsome]; rfl, rfl, fun before' after' h => ?_⟩
      obtain ⟨before'', rfl, hcs⟩ := hrest h
      exact Nat.succ_le_succ (hmin before'' after' hcs)

theorem First.unique {before' after' : List Char} (h : First pat cs before after) (h' : First pat cs before' after') :
    before = before' ∧ after = after' := by
  have hlen := le_antisymm (h.2 _ _ h'.1) (h'.2 _ _ h.1)
  have heq := h.1.symm.trans h'.1
  rw [append_assoc, append_assoc] at heq
  obtain ⟨hbe, hre⟩ := append_inj heq hlen
  exact ⟨hbe, append_cancel_left hre⟩

theorem userAgentHasToken_iff (htoken : token ≠ "") : userAgentHasToken uaLower token = true ↔
    ∃ before after, First token.toList uaLower.toList before after ∧ StandsAlone before after := by
  have hiso (c : Char) : ((c < 'a' || 'z' < c) && (c < '0' || '9' < c)) = !isWordChar c := by
    simp only [isWordChar, Bool.not_or, Bool.not_and, ← decide_not, not_le]
  rcases cut_cases token.toList uaLower.toList with ⟨hcut, hno⟩ | ⟨before, after, hcut, hfi⟩
  · have hnot : userAgentHasToken uaLower token = false := by simp [userAgentHasToken, hcut]
    rw [hnot]
    exact ⟨nofun, fun ⟨before, after, hfi, _⟩ => absurd hfi.1 (hno before after)⟩
  have hua : uaLower ≠ "" := by
    rintro rfl
    simp [First, htoken] at hfi
  have hal : userAgentHasToken uaLower token = true ↔ StandsAlone before after := by
    simp [userAgentHasToken, hua, htoken, hcut, hiso, StandsAlone, Option.all_eq_true]
  rw [hal]
  refine ⟨fun h => ⟨before, after, hfi, h⟩, fun ⟨before', after', hfi', h⟩ => ?_⟩
  obtain ⟨rfl, rfl⟩ := hfi.unique hfi'
  exact h

/-- The match is exact if and only if the first occurrence stands alone or none does. -/
theorem userAgentHasToken_exact_iff (uaLower token : String) (htoken : token ≠ "") :
    (userAgentHasToken uaLower token = true ↔
      ∃ before after, uaLower.toList = before ++ token.toList ++ after ∧ StandsAlone before after) ↔
    ∀ before after before' after', First token.toList uaLower.toList before after →
      uaLower.toList = before' ++ token.toList ++ after' → StandsAlone before' after' → StandsAlone before after := by
  rw [userAgentHasToken_iff htoken]
  constructor
  · intro h before after before' after' hfi hocc hal
    obtain ⟨b, a, hfi', hal'⟩ := h.2 ⟨before', after', hocc, hal⟩
    obtain ⟨rfl, rfl⟩ := hfi.unique hfi'
    exact hal'
  · intro h
    refine ⟨fun ⟨before, after, hfi, hal⟩ => ⟨before, after, hfi.1, hal⟩, fun ⟨before', after', hocc, hal⟩ => ?_⟩
    rcases cut_cases token.toList uaLower.toList with ⟨-, hno⟩ | ⟨before, after, -, hfi⟩
    · exact absurd hocc (hno before' after')
    · exact ⟨before, after, hfi, h _ _ _ _ hfi hocc hal⟩

theorem userAgentHasToken_exact_happ : userAgentHasToken "x happ y" "happ" = true ∧
    ∃ before after, "x happ y".toList = before ++ "happ".toList ++ after ∧ StandsAlone before after := by
  refine ⟨by decide, ((userAgentHasToken_exact_iff "x happ y" "happ" (by decide)).2 ?_).1 (by decide)⟩
  intro before after _ _ hfi _ _
  obtain ⟨before', after', hfi', hal⟩ := (userAgentHasToken_iff (by decide)).1
    (show userAgentHasToken "x happ y" "happ" = true by decide)
  obtain ⟨rfl, rfl⟩ := hfi.unique hfi'
  exact hal

/-- The token stands alone at its second occurrence. -/
theorem second_token_missed : userAgentHasToken "v2rayng v2ray" "v2ray" = false ∧
    ∃ before after, "v2rayng v2ray".toList = before ++ "v2ray".toList ++ after ∧ StandsAlone before after :=
  ⟨by decide, "v2rayng ".toList, [], by decide, by simp [StandsAlone]; decide⟩

end

/-! ### The hardware id -/

section

variable {s s' : String} {c : Char} {cs : List Char}

def isHexDigit (c : Char) : Bool := ('a' ≤ c && c ≤ 'f') || ('0' ≤ c && c ≤ '9')

def hexDigits (s : String) : List Char := (toLower (trimSpace s)).toList.filter isHexDigit

theorem normalizeHwid_eq : normalizeHwid s =
    if (hexDigits s).length ∈ [16, 32, 40, 64] then String.ofList (hexDigits s) else toLower (trimSpace s) := by
  unfold normalizeHwid hexDigits isHexDigit
  simp only [contains_iff_mem]

theorem lowerRune_of_isHexDigit (h : isHexDigit c = true) : lowerRune c = c := by
  have hall : ∀ n < 128, isHexDigit (.ofNat n) = true → lowerRune (.ofNat n) = .ofNat n := by decide
  have hc : c.toNat < 128 := by
    grind [isHexDigit, le_def, UInt32.le_iff_toNat_le, Char.toNat]
  have := hall c.toNat hc
  rw [ofNat_toNat] at this
  exact this h

theorem trimSpace_toLower : trimSpace (toLower s) = toLower (trimSpace s) := trimSpace_map isSpace_lowerRune

theorem toLower_idem : toLower (toLower s) = toLower s := by
  simp [toLower, Function.comp_def, lowerRune_idem]

theorem toLower_hexDigits : toLower (String.ofList (hexDigits s)) = String.ofList (hexDigits s) := by
  have hlow : (hexDigits s).map lowerRune = (hexDigits s).map id :=
    map_congr_left fun c hc => lowerRune_of_isHexDigit (mem_filter.1 hc).2
  rw [toLower, String.toList_ofList, hlow, map_id]

theorem filter_trimChars {p : Char → Bool} (hp : ∀ c, isSpace c = true → p c = false) (cs : List Char) :
    (trimChars cs).filter p = cs.filter p := by
  have hleft (cs : List Char) : (trimLeft cs).filter p = cs.filter p := by
    have hsp : (cs.takeWhile isSpace).filter p = [] :=
      filter_eq_nil_iff.2 fun c hc => by simp [hp c (mem_takeWhile_imp hc)]
    conv_rhs => rw [← takeWhile_append_dropWhile (p := isSpace) (l := cs), filter_append, hsp, nil_append]
    rfl
  rw [trimChars, filter_reverse, hleft, filter_reverse, reverse_reverse, hleft]

section

-- what counts as a letter or digit: the hexadecimal digits do, spaces do not
variable {isLetterOrDigit : Char → Bool} (hhex : ∀ c, isHexDigit c = true → isLetterOrDigit c = true)
  (hspace : ∀ c, isSpace c = true → isLetterOrDigit c = false)

/-- The letters and digits of a text, in lower case. -/
def letters (isLetterOrDigit : Char → Bool) (s : String) : List Char := (toLower s).toList.filter isLetterOrDigit

include hspace

theorem letters_trimSpace : letters isLetterOrDigit (trimSpace s) = letters isLetterOrDigit s := by
  have hsp (c : Char) (hc : isSpace c = true) : (isLetterOrDigit ∘ lowerRune) c = false :=
    hspace _ ((isSpace_lowerRune c).trans hc)
  simp only [letters, toLower, trimSpace, String.toList_ofList, filter_map, filter_trimChars hsp]

include hhex

theorem hexDigits_eq : hexDigits s = (letters isLetterOrDigit s).filter isHexDigit := by
  rw [← letters_trimSpace hspace, letters, filter_filter, hexDigits]
  refine filter_congr fun c _ => ?_
  cases h : isHexDigit c with
  | false => rfl
  | true => rw [hhex c h]; rfl

theorem letters_normalizeHwid : letters isLetterOrDigit (normalizeHwid s) =
    if (hexDigits s).length ∈ [16, 32, 40, 64] then hexDigits s else letters isLetterOrDigit s := by
  rw [normalizeHwid_eq]
  split_ifs
  · rw [letters, toLower_hexDigits, String.toList_ofList]
    exact filter_eq_self.2 fun c hc => hhex c (mem_filter.1 hc).2
  · rw [← letters_trimSpace hspace (s := s), letters, toLower_idem, letters]

theorem hexDigits_normalizeHwid : hexDigits (normalizeHwid s) = hexDigits s := by
  rw [hexDigits_eq hhex hspace, letters_normalizeHwid hhex hspace]
  split_ifs
  · exact filter_eq_self.2 fun _ hc => (mem_filter.1 hc).2
  · exact (hexDigits_eq hhex hspace).symm

/-- Two texts are merged only if they are spellings of one id, unless they have the same 16, 32, 40 or 64 hexadecimal
digits and differ in other letters. A normalised id stays as it is. -/
theorem hwid_merges_spellings_iff (s s' : String) :
    ((normalizeHwid s = normalizeHwid s' → letters isLetterOrDigit s = letters isLetterOrDigit s') ↔
      ¬ ((hexDigits s).length ∈ [16, 32, 40, 64] ∧ hexDigits s = hexDigits s' ∧
        letters isLetterOrDigit s ≠ letters isLetterOrDigit s')) ∧
      normalizeHwid (normalizeHwid s) = normalizeHwid s := by
  refine ⟨⟨fun h ⟨hlen, hsame, hne⟩ => hne (h ?_), fun h heq => ?_⟩, ?_⟩
  · rw [normalizeHwid_eq, normalizeHwid_eq, ← hsame, if_pos hlen, if_pos hlen]
  · have hsame : hexDigits s = hexDigits s' := by
      rw [← hexDigits_normalizeHwid hhex hspace, heq, hexDigits_normalizeHwid hhex hspace]
    by_cases hlen : (hexDigits s).length ∈ [16, 32, 40, 64]
    · by_contra hne
      exact h ⟨hlen, hsame, hne⟩
    have hle := congrArg (letters isLetterOrDigit) heq
    rwa [letters_normalizeHwid hhex hspace, letters_normalizeHwid hhex hspace, if_neg hlen,
      if_neg (hsame ▸ hlen)] at hle
  · rw [normalizeHwid_eq, hexDigits_normalizeHwid hhex hspace]
    split_ifs with hlen
    · rw [normalizeHwid_eq, if_pos hlen]
    · rw [normalizeHwid_eq, if_neg hlen, trimSpace_toLower, trimSpace_idem, toLower_idem]

end

theorem isSpace_of_isAlphanum (h : c.isAlphanum = true) : isSpace c = false := by
  have hran : 0x30 ≤ c.toNat ∧ c.toNat ≤ 0x7a := by
    grind [isAlphanum, isAlpha, isUpper, isLower, isDigit, UInt32.le_iff_toNat_le, Char.toNat]
  exact isSpace_eq_false hran.1 hran.2 (by decide)

theorem hwid_merges_spellings_colons :
    letters isAlphanum "0123456789ABCDEF" = letters isAlphanum "01:23:45:67:89:ab:cd:ef" := by
  have hhex (c : Char) (h : isHexDigit c = true) : c.isAlphanum = true := by
    grind [isHexDigit, isAlphanum, isAlpha, isUpper, isLower, isDigit, le_def, UInt32.le_iff_toNat_le]
  have hspace (c : Char) (h : isSpace c = true) : c.isAlphanum = false := by
    by_contra hal
    rw [isSpace_of_isAlphanum (by simpa using hal)] at h
    cases h
  exact (hwid_merges_spellings_iff hhex hspace _ _).1.2 (by decide +kernel) (by decide +kernel)

/-- Two ids that differ in a letter are taken for one. -/
theorem hwid_letter_lost : normalizeHwid "0123456789abcdef" = normalizeHwid "0123456789abcdefz" ∧
    letters isAlphanum "0123456789abcdef" ≠ letters isAlphanum "0123456789abcdefz" := by
  decide +kernel

end

end Xraytool.Delivery
