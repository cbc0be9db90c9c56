import Mathlib.Data.List.TakeWhile
import LcxlNetLoader.JsonReader

/-!
# What the reader leaves

Every scan stops at a place behind the one it starts at, so that a token that is not the end of the
stream takes a character at least. Hence the fuel of `parse` is enough for every document, and of
any read we know what it leaves (`Reading.Sound`): the rest is behind the place it was at, there is
one error more just where it failed, and the value is one that a `Value` can hold.
-/

namespace LcxlNetLoader

open Json

namespace Reader

theorem skipSpaces_suffix (current : Location) : skipSpaces current <:+ current :=
  List.dropWhile_suffix _

theorem getNextChar_suffix (current : Location) : (getNextChar current).2 <:+ current := by
  cases current with
  | nil => exact List.suffix_rfl
  | cons c current => exact List.suffix_cons c current

theorem matchPattern_suffix (pattern : List Char) (current : Location) :
    (matchPattern pattern current).2 <:+ current := by
  unfold matchPattern
  split_ifs
  · exact List.drop_suffix _ _
  · exact List.suffix_rfl

theorem readCStyleComment_suffix : ∀ current : Location, (readCStyleComment current).2 <:+ current
  | [] => List.suffix_rfl
  | c :: current => by
    simp only [readCStyleComment]
    split_ifs
    · exact (getNextChar_suffix current).trans (List.suffix_cons c current)
    · exact (readCStyleComment_suffix current).trans (List.suffix_cons c current)

theorem readCppStyleComment_suffix :
    ∀ current : Location, (readCppStyleComment current).2 <:+ current
  | [] => List.suffix_rfl
  | c :: current => by
    simp only [readCppStyleComment]
    split_ifs
    · exact List.suffix_cons c current
    · exact (readCppStyleComment_suffix current).trans (List.suffix_cons c current)

theorem readComment_suffix (current : Location) : (readComment current).2 <:+ current := by
  have h := getNextChar_suffix current
  unfold readComment
  split <;> rename_i heq <;> rw [heq] at h
  · exact (readCStyleComment_suffix _).trans h
  · exact (readCppStyleComment_suffix _).trans h
  · exact h

theorem readString_suffix (current : Location) : (readString current).2 <:+ current := by
  fun_induction readString current with
  | case1 => exact List.suffix_rfl
  | case2 => exact List.nil_suffix
  | case3 c current ih => exact ih.trans ((List.suffix_cons c current).trans (List.suffix_cons _ _))
  | case4 => exact List.suffix_cons _ _
  | case5 => rename_i ih; exact ih.trans (List.suffix_cons _ _)

theorem tokenAt_start (start : Location) : (tokenAt start).start = start := by
  unfold tokenAt
  split <;> first | rfl | (split_ifs <;> rfl)

theorem tokenAt_stop (c : Char) (current : Location) :
    (tokenAt (c :: current)).stop <:+ current := by
  unfold tokenAt
  split <;> rename_i heq <;> simp only [getNextChar, Prod.mk.injEq] at heq <;>
    obtain ⟨-, rfl⟩ := heq
  case h_5 => exact readString_suffix _
  case h_6 => exact readComment_suffix _
  case h_7 | h_8 | h_9 => exact matchPattern_suffix _ _
  case h_13 =>
    split_ifs
    · exact List.dropWhile_suffix _
    · exact List.suffix_rfl
  all_goals exact List.suffix_rfl

/-- What is read as a string ends with a quote. -/
theorem readString_eq {current : Location} (h : (readString current).1 = true) :
    ∃ text, current = text ++ '"' :: (readString current).2 := by
  fun_induction readString current with
  | case1 | case2 => exact absurd h (by simp)
  | case3 c current ih =>
    obtain ⟨text, htext⟩ := ih h
    exact ⟨'\\' :: c :: text, by rw [List.cons_append, List.cons_append, ← htext]⟩
  | case4 current => exact ⟨[], rfl⟩
  | case5 c current _ _ _ ih =>
    obtain ⟨text, htext⟩ := ih h
    exact ⟨c :: text, by rw [List.cons_append, ← htext]⟩

theorem tokenAt_string {start : Location} (h : (tokenAt start).type = .string) :
    ∃ text, start = '"' :: (text ++ '"' :: (tokenAt start).stop) := by
  revert h
  unfold tokenAt
  split <;> rename_i heq <;> intro h
  case h_5 =>
    rcases start with _ | ⟨c, rest⟩
    · exact absurd heq (by simp [getNextChar])
    simp only [getNextChar, Prod.mk.injEq] at heq
    obtain ⟨rfl, rfl⟩ := heq
    rcases hr : (readString rest).1 with _ | _
    · exact absurd h (by simp [scanned, hr])
    · obtain ⟨text, htext⟩ := readString_eq hr
      exact ⟨text, congrArg _ htext⟩
  all_goals
    revert h
    try simp only [scanned]
    try split_ifs
    all_goals exact fun h => absurd h (by decide)

/-- A token is behind the place that it is read at, and behind its spaces. A string's is its text
within quotes. -/
structure Follows (current : Location) (token : Token) : Prop where
  start : token.start <:+ current
  head : ∀ c ∈ token.start.head?, isSpace c = false
  stop : token.stop <:+ token.start
  lt : token.type ≠ .endOfStream → token.stop.length < current.length
  string : token.type = .string → ∃ text, token.start = '"' :: (text ++ '"' :: token.stop)

theorem readToken_follows (current : Location) : Follows current (readToken current) := by
  have hstart : (readToken current).start = skipSpaces current := tokenAt_start _
  have hskip := skipSpaces_suffix current
  have hhead : ∀ c ∈ (skipSpaces current).head?, isSpace c = false := by
    intro c hc
    have h := List.head?_dropWhile_not isSpace current
    rwa [← skipSpaces, Option.mem_def.mp hc] at h
  have hstop : (readToken current).stop <:+ (readToken current).start ∧
      ((readToken current).type ≠ .endOfStream →
        (readToken current).stop.length < (readToken current).start.length) := by
    rw [hstart, readToken]
    rcases skipSpaces current with _ | ⟨c, rest⟩
    · exact ⟨List.suffix_rfl, fun h => absurd rfl h⟩
    · have h := tokenAt_stop c rest
      exact ⟨h.trans (List.suffix_cons c rest), fun _ => Nat.lt_succ_of_le h.length_le⟩
  exact ⟨hstart ▸ hskip, hstart ▸ hhead, hstop.1,
    fun h => (hstop.2 h).trans_le (hstart ▸ hskip.length_le),
    fun h => hstart ▸ tokenAt_string h⟩

theorem Follows.trans {current : Location} {token token' : Token} (h : Follows current token)
    (h' : Follows token.stop token') : Follows current token' :=
  ⟨h'.start.trans (h.stop.trans h.start), h'.head, h'.stop, fun htype =>
    (h'.lt htype).trans_le (h.stop.trans h.start).length_le, h'.string⟩

theorem readPastComments_follows :
    ∀ (n : ℕ) (current : Location), Follows current (readPastComments n current)
  | 0, current => readToken_follows current
  | n + 1, current => by
    simp only [readPastComments]
    split_ifs
    · exact (readToken_follows current).trans (readPastComments_follows n _)
    · exact readToken_follows current

theorem nextToken_follows (current : Location) : Follows current (nextToken current) :=
  readPastComments_follows _ current

theorem skipCommentTokens_follows (features : Features) (current : Location) :
    Follows current (skipCommentTokens features current) := by
  unfold skipCommentTokens
  split_ifs
  · exact nextToken_follows current
  · exact readToken_follows current

/-- No rounds more are needed than there are characters. -/
theorem readPastComments_eq :
    ∀ (n m : ℕ) (current : Location), current.length ≤ n → current.length ≤ m →
      readPastComments n current = readPastComments m current
  | 0, 0, _, _, _ => rfl
  | 0, m + 1, current, h, _ | m + 1, 0, current, _, h => by
    rw [List.length_eq_zero_iff.mp (Nat.le_zero.mp h)]
    rfl
  | n + 1, m + 1, current, hn, hm => by
    simp only [readPastComments]
    split_ifs with hc
    · have hlt := (readToken_follows current).lt (by rw [hc]; decide)
      exact readPastComments_eq n m _ (by omega) (by omega)
    · rfl

theorem nextToken_eq (current : Location) :
    nextToken current =
      if (readToken current).type = .comment then nextToken (readToken current).stop
      else readToken current := by
  rcases hl : current.length with _ | n
  · rw [List.length_eq_zero_iff.mp hl]
    rfl
  · rw [nextToken, hl]
    simp only [readPastComments]
    split_ifs with hc
    · have hlt := (readToken_follows current).lt (by rw [hc]; decide)
      exact readPastComments_eq _ _ _ (by omega) le_rfl
    · rfl

theorem skipUntil_suffix (skipUntilToken : TokenType) :
    ∀ (n : ℕ) (current : Location), skipUntil skipUntilToken n current <:+ current
  | 0, _ => List.suffix_rfl
  | n + 1, current => by
    have hf := readToken_follows current
    have hstop := hf.stop.trans hf.start
    simp only [skipUntil]
    split_ifs
    · exact hstop
    · exact (skipUntil_suffix skipUntilToken n _).trans hstop

theorem recoverFromError_current (s : ReaderState) (skipUntilToken : TokenType) :
    (recoverFromError s skipUntilToken).current <:+ s.current :=
  skipUntil_suffix _ _ _

/-- The loop of `recoverFromError` stops at the token it looks for, or at the end. -/
theorem skipUntil_eq (skipUntilToken : TokenType) :
    ∀ (n m : ℕ) (current : Location), current.length < n → current.length < m →
      skipUntil skipUntilToken n current = skipUntil skipUntilToken m current
  | n + 1, m + 1, current, hn, hm => by
    simp only [skipUntil]
    split_ifs with hc
    · rfl
    · have hlt := (readToken_follows current).lt (fun h => hc (.inr h))
      exact skipUntil_eq skipUntilToken n m _ (by omega) (by omega)

theorem heldAll_iff : ∀ {values : List Value}, HeldAll values ↔ ∀ v ∈ values, Held v
  | [] => by simp [HeldAll]
  | v :: values => by rw [HeldAll, heldAll_iff, List.forall_mem_cons]

theorem heldMembers_iff : ∀ {members : List (String × Value)},
    HeldMembers members ↔ ∀ m ∈ members, '\x00' ∉ m.1.toList ∧ Held m.2
  | [] => by simp [HeldMembers]
  | (key, v) :: members => by rw [HeldMembers, heldMembers_iff, List.forall_mem_cons]

theorem cString_toList (s : List Char) : (cString s).toList = s.takeWhile (· ≠ '\x00') :=
  String.toList_ofList

theorem not_mem_cString (s : List Char) : '\x00' ∉ (cString s).toList := by
  intro h
  rw [cString_toList] at h
  have hne := List.mem_takeWhile_imp h
  simp at hne

/-- Members stay held where one that is held is set. -/
theorem held_setMember {members : List (String × Value)} {v : Value}
    (h : Held (.object members)) (name : List Char) (hv : Held v) :
    Held (.object (setMember (cString name) v members)) := by
  obtain ⟨horder, hmembers⟩ := h
  refine ⟨horder.setMember _ _, heldMembers_iff.mpr fun m hm => ?_⟩
  rcases mem_setMember hm with rfl | hm
  · exact ⟨not_mem_cString name, hv⟩
  · exact heldMembers_iff.mp hmembers m hm

theorem held_lookup {members : List (String × Value)} (h : Held (.object members))
    (key : String) : Held ((members.lookup key).getD .null) := by
  rcases hl : members.lookup key with _ | v
  · exact trivial
  · obtain ⟨l, l', rfl, -⟩ := List.lookup_eq_some_iff.mp hl
    exact (heldMembers_iff.mp h.2 (key, v) (by simp)).2

theorem held_append {values : List Value} {v : Value} (h : Held (.array values)) (hv : Held v) :
    Held (.array (values ++ [v])) := by
  refine heldAll_iff.mpr fun w hw => ?_
  rcases List.mem_append.mp hw with hw | hw
  · exact heldAll_iff.mp h w hw
  · rw [List.mem_singleton.mp hw]
    exact hv

/-- An error is about a token behind the place, and behind spaces, and points into it. -/
structure Within (e : ErrorInfo) (place : Location) : Prop where
  start : e.token.start <:+ place
  head : ∀ c ∈ e.token.start.head?, isSpace c = false
  stop : e.token.stop <:+ e.token.start
  extra : ∀ extra ∈ e.extra, extra <:+ e.token.start

theorem Follows.within {place : Location} {token : Token} (h : Follows place token)
    (message : List Char) : Within ⟨token, message, none⟩ place :=
  ⟨h.start, h.head, h.stop, fun _ hx => absurd hx (by simp)⟩

theorem Within.mono {e : ErrorInfo} {place place' : Location} (h : Within e place)
    (hp : place <:+ place') : Within e place' :=
  ⟨h.start.trans hp, h.head, h.stop, h.extra⟩

/-- What is known of a reading, wherever it starts. -/
structure Sound (s : ReaderState) (r : Reading) : Prop where
  rest : r.state.current <:+ s.current
  held : Held r.value
  errors : if r.successful then r.state.errors = s.errors
    else ∃ e, r.state.errors = s.errors ++ [e] ∧ Within e s.current

theorem Sound.mono {s s' : ReaderState} {r : Reading} (h : Sound s' r)
    (hc : s'.current <:+ s.current) (he : s'.errors = s.errors) : Sound s r := by
  refine ⟨h.rest.trans hc, h.held, ?_⟩
  have herrors := h.errors
  split_ifs at herrors ⊢
  · rw [herrors, he]
  · obtain ⟨e, h1, h2⟩ := herrors
    exact ⟨e, by rw [h1, he], h2.mono hc⟩

theorem Sound.errors_eq {s : ReaderState} {r : Reading} (h : Sound s r)
    (hr : r.successful = true) : r.state.errors = s.errors := by
  have herrors := h.errors
  rwa [if_pos hr] at herrors

theorem Sound.passed {s : ReaderState} {v : Value} {current : Location}
    (hc : current <:+ s.current) (hv : Held v) : Sound s ⟨true, v, { s with current }⟩ :=
  ⟨hc, hv, rfl⟩

theorem Sound.failed {s : ReaderState} {v : Value} {current : Location} {e : ErrorInfo}
    (hc : current <:+ s.current) (hv : Held v) (he : Within e s.current) :
    Sound s ⟨false, v, addError { s with current } e⟩ :=
  ⟨hc, hv, e, rfl, he⟩

/-- A failed reading stays one where the reader recovers and has put the value into its place. -/
theorem Sound.recovered {s : ReaderState} {r : Reading} (h : Sound s r)
    (hr : ¬ r.successful = true) {v : Value} (hv : Held v) (skipUntilToken : TokenType) :
    Sound s ⟨false, v, recoverFromError r.state skipUntilToken⟩ := by
  have herrors := h.errors
  rw [if_neg hr] at herrors
  exact ⟨(recoverFromError_current _ _).trans h.rest, hv, herrors⟩

/-- The errors of decoding what is left of a string's text are of its token, and point into it. -/
def DecodesWithin {α : Type} (token : Token) (current : List Char) (d : Decoded α) : Prop :=
  ∀ e, d = .error e →
    e.token = token ∧ ∃ rest, rest <:+ current ∧ e.extra = some (within token rest)

theorem decodesWithin_error {α : Type} {token : Token} {current rest : List Char}
    (h : rest <:+ current) (message : List Char) :
    DecodesWithin token current
      (.error ⟨token, message, some (within token rest)⟩ : Decoded α) := by
  intro e he
  rw [← Except.error.inj he]
  exact ⟨rfl, rest, h, rfl⟩

theorem DecodesWithin.mono {α : Type} {token : Token} {current current' : List Char}
    {d : Decoded α} (h : DecodesWithin token current d) (hc : current <:+ current') :
    DecodesWithin token current' d := by
  intro e he
  obtain ⟨htoken, rest, hrest, hextra⟩ := h e he
  exact ⟨htoken, rest, hrest.trans hc, hextra⟩

/-- A decoding of a number that also tells where it has stopped. -/
structure Steps (token : Token) (current : List Char) (d : Decoded (ℕ × List Char)) : Prop where
  errors : DecodesWithin token current d
  rest : ∀ u rest, d = .ok (u, rest) → rest <:+ current

theorem Steps.error {token : Token} {current rest : List Char} (h : rest <:+ current)
    (message : List Char) :
    Steps token current (.error ⟨token, message, some (within token rest)⟩) :=
  ⟨decodesWithin_error h message, fun _ _ hok => absurd hok (by simp)⟩

theorem Steps.ok {token : Token} {current rest : List Char} (h : rest <:+ current) (u : ℕ) :
    Steps token current (.ok (u, rest)) := by
  refine ⟨fun e he => absurd he (by simp), fun u' rest' hok => ?_⟩
  rw [← (Prod.mk.inj (Except.ok.inj hok)).2]
  exact h

theorem Steps.mono {token : Token} {current current' : List Char} {d : Decoded (ℕ × List Char)}
    (h : Steps token current d) (hc : current <:+ current') : Steps token current' d :=
  ⟨h.errors.mono hc, fun u rest hok => (h.rest u rest hok).trans hc⟩

theorem Steps.bind {token : Token} {current : List Char} {d : Decoded (ℕ × List Char)}
    {f : ℕ × List Char → Decoded (ℕ × List Char)} (h : Steps token current d)
    (hf : ∀ u rest, Steps token rest (f (u, rest))) : Steps token current (d >>= f) := by
  rcases d with e | ⟨u, rest⟩
  · exact ⟨fun e' he => h.errors e' he, fun _ _ hok =>
      absurd hok (by simp [Bind.bind, Except.bind])⟩
  · exact (hf u rest).mono (h.rest u rest rfl)

theorem decodeHexDigits_steps (token : Token) :
    ∀ (n unicode : ℕ) (current : List Char),
      Steps token current (decodeHexDigits token n unicode current)
  | 0, _, _ => Steps.ok List.suffix_rfl _
  | _ + 1, _, [] => Steps.ok List.suffix_rfl _
  | n + 1, unicode, c :: current => by
    simp only [decodeHexDigits]
    split_ifs
    · exact (decodeHexDigits_steps token n _ current).mono (List.suffix_cons c current)
    · exact Steps.error (List.suffix_cons c current) _

theorem decodeUnicodeEscapeSequence_steps (token : Token) (current : List Char) :
    Steps token current (decodeUnicodeEscapeSequence token current) := by
  unfold decodeUnicodeEscapeSequence
  split_ifs
  · exact Steps.error List.suffix_rfl _
  · exact decodeHexDigits_steps token 4 0 current

theorem decodeUnicodeCodePoint_steps (token : Token) (current : List Char) :
    Steps token current (decodeUnicodeCodePoint token current) := by
  refine (decodeUnicodeEscapeSequence_steps token current).bind fun unicode current => ?_
  simp only []
  split_ifs with hsurrogate hlength
  · exact Steps.error List.suffix_rfl _
  · clear hlength
    split
    · rename_i current
      have hc : current <:+ '\\' :: 'u' :: current :=
        (List.suffix_cons _ _).trans (List.suffix_cons _ _)
      refine Steps.mono (Steps.bind (decodeUnicodeEscapeSequence_steps token current) ?_) hc
      intro u rest
      exact Steps.ok List.suffix_rfl _
    · exact Steps.error ((List.suffix_cons _ _).trans (List.suffix_cons _ _)) _
    · exact Steps.error (List.tail_suffix _) _
  · exact Steps.ok List.suffix_rfl _

theorem decodeStringFrom_within (token : Token) :
    ∀ (fuel : ℕ) (decoded current : List Char),
      DecodesWithin token current (decodeStringFrom token fuel decoded current)
  | 0, _, _ => fun e he => absurd he (by simp [decodeStringFrom])
  | fuel + 1, decoded, current => by
    unfold decodeStringFrom
    split
    · rename_i current heq
      obtain rfl : fuel = _ := Nat.succ.inj heq
      have hc := List.suffix_cons '\\' current
      split
      · exact decodesWithin_error List.nil_suffix _
      · rename_i current
        have hu := (List.suffix_cons 'u' current).trans hc
        have hsteps := decodeUnicodeCodePoint_steps token current
        rcases hd : decodeUnicodeCodePoint token current with e | ⟨u, rest⟩
        · rw [hd] at hsteps
          intro e' he
          rw [← Except.error.inj he]
          exact hsteps.errors.mono hu e rfl
        · exact ((decodeStringFrom_within token _ _ rest).mono (hsteps.rest u rest hd)).mono hu
      · rename_i escape current _
        have hu := (List.suffix_cons escape current).trans hc
        split
        · exact (decodeStringFrom_within token _ _ current).mono hu
        · exact decodesWithin_error hu _
    · rename_i c current _ heq
      obtain rfl : fuel = _ := Nat.succ.inj heq
      split_ifs
      · exact fun e he => absurd he (by simp)
      · exact (decodeStringFrom_within token _ _ current).mono (List.suffix_cons c current)
    · exact fun e he => absurd he (by simp)

theorem Token.text_string {token : Token} {text : List Char}
    (h : token.start = '"' :: (text ++ '"' :: token.stop)) :
    token.text = '"' :: (text ++ ['"']) := by
  have hl : token.start.length - token.stop.length = ('"' :: (text ++ ['"'])).length := by
    rw [h]
    simp only [List.length_cons, List.length_append, List.length_nil]
    omega
  have happ : token.start = '"' :: (text ++ ['"']) ++ token.stop := by simp [h]
  rw [Token.text, hl, happ, List.take_left]

theorem Follows.decodeString {place : Location} {token : Token} (h : Follows place token)
    (htype : token.type = .string) {e : ErrorInfo} (he : Reader.decodeString token = .error e) :
    Within e place := by
  obtain ⟨text, htext⟩ := h.string htype
  have hwithin := decodeStringFrom_within token token.text.tail.dropLast.length []
    token.text.tail.dropLast e he
  rw [Token.text_string htext, List.tail_cons, List.dropLast_concat] at hwithin
  obtain ⟨rfl, rest, hrest, hextra⟩ := hwithin
  refine ⟨h.start, h.head, h.stop, fun x hx => ?_⟩
  obtain rfl : Reader.within e.token rest = x := by
    rw [hextra] at hx
    exact Option.mem_some_iff.mp hx
  obtain ⟨l, rfl⟩ := hrest
  rw [htext]
  exact ⟨'"' :: l, by simp [Reader.within]⟩

theorem decodeDigits_lt {token : Token} {threshold lastDigitThreshold : ℕ} :
    ∀ (current : List Char) {value n : ℕ}, value < 2 ^ 64 →
      decodeDigits token threshold lastDigitThreshold value current = .ok (some n) → n < 2 ^ 64
  | [], value, n, hv, h => by
    simp only [decodeDigits, Except.ok.injEq, Option.some.injEq] at h
    exact h ▸ hv
  | c :: current, value, n, hv, h => by
    simp only [decodeDigits] at h
    split_ifs at h
    · exact absurd h (by simp)
    · exact decodeDigits_lt current (Nat.mod_lt _ (by decide)) h

theorem decodeDigits_error {token : Token} {threshold lastDigitThreshold : ℕ} {e : ErrorInfo} :
    ∀ (current : List Char) {value : ℕ},
      decodeDigits token threshold lastDigitThreshold value current = .error e →
        e = notANumber token
  | [], value, h => by simp [decodeDigits] at h
  | c :: current, value, h => by
    simp only [decodeDigits] at h
    split_ifs at h
    · exact (Except.error.inj h).symm
    · exact decodeDigits_error current h

variable {sscanf : List Char → Option ℚ} {features : Features}

theorem decodeDouble_error {token : Token} {e : ErrorInfo}
    (h : decodeDouble sscanf token = .error e) : e = notANumber token := by
  unfold decodeDouble at h
  split at h
  · exact absurd h (by simp)
  · exact (Except.error.inj h).symm

theorem decodeNumber_error {token : Token} {e : ErrorInfo}
    (h : decodeNumber sscanf token = .error e) : e = notANumber token := by
  simp only [decodeNumber] at h
  split_ifs at h
  · exact decodeDouble_error h
  all_goals
    split at h
    · rename_i e' he
      rw [← Except.error.inj h]
      exact decodeDigits_error _ he
    · exact decodeDouble_error h
    · exact absurd h (by simp)

theorem held_decodeDouble {token : Token} {v : Value}
    (h : decodeDouble sscanf token = .ok v) : Held v := by
  unfold decodeDouble at h
  split at h
  · rw [← Except.ok.inj h]
    exact trivial
  · exact absurd h (by simp)

theorem held_decodeNumber {token : Token} {v : Value}
    (h : decodeNumber sscanf token = .ok v) : Held v := by
  simp only [decodeNumber] at h
  split_ifs at h
  · exact held_decodeDouble h
  all_goals
    split at h
    · exact absurd h (by simp)
    · exact held_decodeDouble h
    · rename_i n hn
      have hlt := decodeDigits_lt _ (by decide) hn
      rw [← Except.ok.inj h]
      simp only [Held]
      try rw [Int.bmod_def]
      omega

/-- What is decoded of a token that follows a place, put where a held value was. -/
theorem sound_ofDecoded {s : ReaderState} {token : Token} {old : Value} {d : Decoded Value}
    (ht : Follows s.current token) (hold : Held old) (hok : ∀ v, d = .ok v → Held v)
    (herror : ∀ e, d = .error e → Within e s.current) :
    Sound s (ofDecoded old { s with current := token.stop } d) := by
  have hstop := ht.stop.trans ht.start
  rcases d with e | v
  · exact Sound.failed hstop hold (herror e rfl)
  · exact Sound.passed hstop (hok v rfl)

theorem sound_empty_array {s : ReaderState} :
    Sound s ⟨true, .array [], { s with current := (readToken (skipSpaces s.current)).stop }⟩ := by
  have hf := readToken_follows (skipSpaces s.current)
  exact Sound.passed ((hf.stop.trans hf.start).trans (skipSpaces_suffix _)) trivial

/-- A reading by one function that starts where a token has ended. -/
theorem Sound.after {s : ReaderState} {r : Reading} {token : Token}
    (h : Sound { s with current := token.stop } r) (ht : Follows s.current token) : Sound s r :=
  h.mono (ht.stop.trans ht.start) rfl

/-- Where a token is not the one expected, the reading fails and recovers. -/
theorem sound_addErrorAndRecover {s : ReaderState} {token : Token} {v : Value}
    (ht : Follows s.current token) (hv : Held v) (message : List Char)
    (skipUntilToken : TokenType) :
    Sound s ⟨false, v, addErrorAndRecover { s with current := token.stop }
      ⟨token, message, none⟩ skipUntilToken⟩ :=
  (Sound.failed (ht.stop.trans ht.start) hv (ht.within message)).recovered Bool.false_ne_true hv _

mutual

theorem readValue_sound : ∀ (fuel : ℕ) (old : Value) (s : ReaderState), Held old →
    2 * s.current.length + 1 ≤ fuel →
      ∃ r, readValue sscanf features fuel old s = some r ∧ Sound s r
  | fuel + 1, old, s, hold, hfuel => by
    have ht := skipCommentTokens_follows features s.current
    have hstop := ht.stop.trans ht.start
    simp only [readValue]
    split
    case h_1 htype =>
      have hlt := ht.lt (by rw [htype]; decide)
      obtain ⟨r, hr, hsound⟩ := readObject_sound fuel [] []
        { s with current := (skipCommentTokens features s.current).stop }
        ⟨List.Pairwise.nil, trivial⟩ (by simp only; omega)
      exact ⟨r, hr, hsound.after ht⟩
    case h_2 htype =>
      have hlt := ht.lt (by rw [htype]; decide)
      split_ifs
      · exact ⟨_, rfl, sound_empty_array.after ht⟩
      · have hspaces := skipSpaces_suffix (skipCommentTokens features s.current).stop
        have hle := hspaces.length_le
        obtain ⟨r, hr, hsound⟩ := readArray_sound fuel []
          { s with current := skipSpaces (skipCommentTokens features s.current).stop }
          trivial (by simp only; omega)
        exact ⟨r, hr, hsound.mono (hspaces.trans hstop) rfl⟩
    case h_3 =>
      refine ⟨_, rfl, sound_ofDecoded ht hold (fun v hv => held_decodeNumber hv) fun e he => ?_⟩
      rw [decodeNumber_error he]
      exact ht.within _
    case h_4 htype =>
      refine ⟨_, rfl, ?_⟩
      rcases hd : decodeString (skipCommentTokens features s.current) with e | text
      · exact Sound.failed hstop hold (ht.decodeString htype hd)
      · exact Sound.passed hstop (not_mem_cString text)
    case h_5 | h_6 | h_7 => exact ⟨_, rfl, Sound.passed hstop trivial⟩
    case h_8 => exact ⟨_, rfl, Sound.failed hstop hold (ht.within _)⟩

theorem readObject_sound : ∀ (fuel : ℕ) (name : List Char) (members : List (String × Value))
    (s : ReaderState), Held (.object members) → 2 * s.current.length + 2 ≤ fuel →
      ∃ r, readObject sscanf features fuel name members s = some r ∧ Sound s r
  | fuel + 1, name, members, s, hmembers, hfuel => by
    have ht := nextToken_follows s.current
    simp only [readObject]
    by_cases hend : (nextToken s.current).type = .objectEnd ∧ name = []
    · rw [if_pos hend]
      exact ⟨_, rfl, Sound.passed (ht.stop.trans ht.start) hmembers⟩
    rw [if_neg hend]
    by_cases hstring : (nextToken s.current).type = .string
    · have hlt := ht.lt (by rw [hstring]; decide)
      rw [if_neg (not_not.mpr hstring)]
      rcases hd : decodeString (nextToken s.current) with e | name'
      · have he := Sound.failed (ht.stop.trans ht.start) hmembers (ht.decodeString hstring hd)
        exact ⟨_, rfl, he.recovered Bool.false_ne_true hmembers _⟩
      have hcolon := readToken_follows (nextToken s.current).stop
      simp only []
      by_cases hc : (readToken (nextToken s.current).stop).type = .memberSeparator
      swap
      · rw [if_pos hc]
        exact ⟨_, rfl, Sound.after (sound_addErrorAndRecover hcolon hmembers _ _) ht⟩
      rw [if_neg (not_not.mpr hc)]
      have hcolonLt := hcolon.lt (by rw [hc]; decide)
      obtain ⟨r, hr, hsound⟩ := readValue_sound fuel _
        { s with current := (readToken (nextToken s.current).stop).stop }
        (held_lookup hmembers (cString name')) (by simp only; omega)
      have hset := held_setMember hmembers name' hsound.held
      have hsound' : Sound s r :=
        hsound.mono ((hcolon.stop.trans hcolon.start).trans (ht.stop.trans ht.start)) rfl
      have hrest := hsound.rest.length_le
      rw [hr]
      simp only []
      by_cases hok : r.successful = true
      swap
      · rw [if_pos hok]
        exact ⟨_, rfl, hsound'.recovered hok hset _⟩
      have herrors := hsound'.errors_eq hok
      have hnext := nextToken_follows r.state.current
      rw [if_neg (not_not.mpr hok)]
      split_ifs with hcomma hobjectEnd
      · exact ⟨_, rfl, (sound_addErrorAndRecover (readToken_follows _) hset _ _).mono
          hsound'.rest herrors⟩
      · exact ⟨_, rfl, (Sound.passed (hnext.stop.trans hnext.start) hset).mono
          hsound'.rest herrors⟩
      · have hle := (hnext.stop.trans hnext.start).length_le
        obtain ⟨r', hr', hsound''⟩ := readObject_sound fuel name' _
          { r.state with current := (nextToken r.state.current).stop } hset
          (by simp only at hrest ⊢; omega)
        exact ⟨r', hr', (hsound''.after hnext).mono hsound'.rest herrors⟩
    · rw [if_pos hstring]
      exact ⟨_, rfl, sound_addErrorAndRecover ht hmembers _ _⟩

theorem readArray_sound : ∀ (fuel : ℕ) (values : List Value) (s : ReaderState),
    Held (.array values) → 2 * s.current.length + 2 ≤ fuel →
      ∃ r, readArray sscanf features fuel values s = some r ∧ Sound s r
  | fuel + 1, values, s, hvalues, hfuel => by
    obtain ⟨r, hr, hsound⟩ := readValue_sound fuel .null s trivial (by omega)
    have happend := held_append hvalues hsound.held
    have hnext := nextToken_follows r.state.current
    have hrest := hsound.rest.length_le
    simp only [readArray]
    rw [hr]
    simp only []
    by_cases hok : r.successful = true
    swap
    · rw [if_pos hok]
      exact ⟨_, rfl, hsound.recovered hok happend _⟩
    have herrors := hsound.errors_eq hok
    rw [if_neg (not_not.mpr hok)]
    split_ifs with htype harrayEnd
    · exact ⟨_, rfl, (sound_addErrorAndRecover hnext happend _ _).mono hsound.rest herrors⟩
    · exact ⟨_, rfl, (Sound.passed (hnext.stop.trans hnext.start) happend).mono hsound.rest
        herrors⟩
    · have hlt := hnext.lt (by intro h; simp [h] at htype)
      obtain ⟨r', hr', hsound'⟩ := readArray_sound fuel _
        { r.state with current := (nextToken r.state.current).stop } happend
        (by simp only; omega)
      exact ⟨r', hr', (hsound'.after hnext).mono hsound.rest herrors⟩

end

/-- Whatever the document and the root, the reader comes to an end. It is successful just where it
has added no error, it adds one where it fails, and one where the root is not what strictness wants.
What it leaves as the root is a value that is held. -/
theorem parse_sound (document : List Char) {root : Value} (hroot : Held root) :
    ∃ p, parse sscanf features document root = some p ∧ Held p.root ∧
      (p.successful = true ↔ p.errors = []) ∧
      ∃ errors : List ErrorInfo, errors.length ≤ 1 ∧ (∀ e ∈ errors, Within e document) ∧
        p.errors = if features.strictRoot ∧ ¬ isArrayOrObject p.root then
          errors ++ [rootError document] else errors := by
  obtain ⟨r, hr, hsound⟩ : ∃ r, readValue sscanf features (2 * document.length + 2) root
      ⟨document, []⟩ = some r ∧ Sound ⟨document, []⟩ r :=
    readValue_sound _ root ⟨document, []⟩ hroot (by simp)
  have herrors := hsound.errors
  have hone : (r.successful = true ↔ r.state.errors = []) ∧ r.state.errors.length ≤ 1 ∧
      ∀ e ∈ r.state.errors, Within e document := by
    simp only [List.nil_append] at herrors
    split_ifs at herrors with hok
    · simp [hok, herrors]
    · obtain ⟨e, he, hwithin⟩ := herrors
      simp [hok, he, hwithin]
  obtain ⟨hiff, hlength, hwithin⟩ := hone
  simp only [parse, hr, Option.bind_eq_bind, Option.bind_some]
  split_ifs with hstrict
  · exact ⟨_, rfl, hsound.held, by simp, _, hlength, hwithin, (if_pos hstrict).symm⟩
  · exact ⟨_, rfl, hsound.held, hiff, _, hlength, hwithin, (if_neg hstrict).symm⟩

end Reader

end LcxlNetLoader
