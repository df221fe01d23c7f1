/-
  What a client sends reads as what its URL says.

  1. **Escapes** — an escape holds no character that is escaped itself, so nothing that has to be
     escaped is left in an escaped text (`escape_escaped`).

  2. **URLs** — a URL that has been read is `Clean`: its path begins with a slash, and path and
     query hold no character that has to be escaped there (`clean_of_parse?`).  It stays so with a
     pair behind its query (`Clean.withPair`).  A path of one segment is escaped and else kept, and
     the query behind it too (`parse?_segment_query`).

  3. **Targets** — the target of a clean URL reads as a URI with the path and the query of the URL,
     unless it is too long (`Clean.parse_target`).
-/
import Mathlib.Data.List.TakeWhile
import Switchboard.Http.Uri
import Switchboard.Http.Url
import Switchboard.Proofs.Http.Form

namespace Switchboard.Http.Url

/-! ## Escapes -/

/-- Neither the path nor the query escapes a hexadecimal digit. -/
theorem digitChar_safe : ∀ n < 16,
    isUnsafeInPath (Nat.digitChar n).toUpper = false ∧
      isUnsafeInQuery (Nat.digitChar n).toUpper = false := by
  decide

/-- An escape holds nothing that is escaped. -/
theorem percent_safe {b : UInt8} {c : Char} (hc : c ∈ Form.percent b) :
    isUnsafeInPath c = false ∧ isUnsafeInQuery c = false := by
  have hb : b.toNat < 256 := b.toNat_lt
  simp only [Form.percent, List.mem_cons, List.not_mem_nil, or_false] at hc
  rcases hc with rfl | rfl | rfl
  · decide
  · exact digitChar_safe _ (by omega)
  · exact digitChar_safe _ (by omega)

/-- What a class escapes is not in a text that has been escaped. -/
theorem escape_escaped {escaped : Char → Bool}
    (hpercent : ∀ b, ∀ c ∈ Form.percent b, escaped c = false)
    {cs : List Char} {c : Char} (hc : c ∈ (escape escaped cs).toList) : escaped c = false := by
  rw [escape, String.toList_ofList] at hc
  obtain ⟨d, -, hd⟩ := List.mem_flatMap.1 hc
  cases hescaped : escaped d with
  | true =>
    rw [hescaped, if_pos rfl] at hd
    obtain ⟨b, -, hb⟩ := List.mem_flatMap.1 hd
    exact hpercent b c hb
  | false =>
    rw [hescaped, if_neg Bool.false_ne_true, List.mem_singleton] at hd
    rw [hd, hescaped]

/-! ## URLs -/

/-- A URL in the form in which it is sent. -/
structure Clean (u : Url) : Prop where
  slash : u.path.toList.head? = some '/'
  path : ∀ c ∈ u.path.toList, isUnsafeInPath c = false
  query : ∀ q ∈ u.query, ∀ c ∈ q.toList, isUnsafeInQuery c = false

/-- A character of texts with separators between them is the separator or in one of them. -/
theorem mem_intercalate {separator c : Char} {parts : List (List Char)}
    (hc : c ∈ [separator].intercalate parts) : c = separator ∨ ∃ part ∈ parts, c ∈ part := by
  induction parts with
  | nil => cases hc
  | cons part parts ih =>
    cases parts with
    | nil =>
      rw [List.intercalate_singleton] at hc
      exact .inr ⟨part, List.mem_cons_self, hc⟩
    | cons next parts =>
      rw [List.intercalate_cons_cons, List.mem_append, List.mem_append, List.mem_singleton] at hc
      rcases hc with (hc | hc) | hc
      · exact .inr ⟨part, List.mem_cons_self, hc⟩
      · exact .inl hc
      · rcases ih hc with hc | ⟨other, hother, hc⟩
        · exact .inl hc
        · exact .inr ⟨other, List.mem_cons_of_mem _ hother, hc⟩

theorem normalizePath_clean (cs : List Char) :
    (normalizePath cs).toList.head? = some '/' ∧
      ∀ c ∈ (normalizePath cs).toList, isUnsafeInPath c = false := by
  unfold normalizePath
  dsimp only
  rw [String.toList_append, String.toList_intercalate]
  refine ⟨rfl, fun c hc => ?_⟩
  rcases List.mem_append.1 hc with hc | hc
  · obtain rfl := List.mem_singleton.1 hc
    decide
  · rcases mem_intercalate hc with rfl | ⟨part, hpart, hc⟩
    · decide
    · rw [List.map_map] at hpart
      obtain ⟨segment, -, rfl⟩ := List.mem_map.1 hpart
      exact escape_escaped (fun _ _ hb => (percent_safe hb).1) hc

/-- A URL that has been read is clean. -/
theorem clean_of_parse? {authority? : List Char → Option String} {text : String} {u : Url}
    (h : parse? authority? text = some u) : u.Clean := by
  unfold parse? afterScheme at h
  dsimp only at h
  split at h
  · obtain ⟨authority, -, rfl⟩ := Option.map_eq_some_iff.1 h
    refine ⟨?slash, ?path, ?query⟩ <;> dsimp only
    case slash => exact (normalizePath_clean _).1
    case path => exact (normalizePath_clean _).2
    case query =>
      intro q hq
      split at hq
      · obtain rfl := Option.some.inj hq
        exact fun c hc => escape_escaped (fun _ _ hb => (percent_safe hb).2) hc
      · cases hq
  · cases h

/-- The query in what stands behind a path. -/
def queryOf? : List Char → Option String
  | '?' :: q => some (escape isUnsafeInQuery (q.takeWhile (· != '#')))
  | _ => none

/-- A path of one segment, at a host of one letter, is escaped when it is read, and so is the query
    behind it. -/
theorem parse?_segment_query {text path : String} (segment behind : List Char)
    (hclean : clean text.toList = "http://h/".toList ++ (segment ++ behind))
    (hends : segment.all (fun c => !isSlash c && !endsPath c) = true)
    (hbehind : ∀ c ∈ behind.head?, endsPath c = true)
    (hdots : isDoubleDot segment = false ∧ isSingleDot segment = false)
    (hpath : "/" ++ escape isUnsafeInPath segment = path) :
    parse? plainAuthority? text = some ⟨"http", "h", path, queryOf? behind⟩ := by
  have hplain {c : Char} (hc : c ∈ segment) : isSlash c = false ∧ endsPath c = false := by
    have hboth := List.all_eq_true.1 hends c hc
    rwa [Bool.and_eq_true, Bool.not_eq_true', Bool.not_eq_true'] at hboth
  have hnormal : normalizePath ('/' :: segment) = path := by
    have hcut : segment.splitOnP isSlash = [segment] :=
      List.splitOnP_eq_singleton fun c hc => (hplain hc).1
    have hresolve : resolve [] [segment] = [segment] := by
      rw [resolve, hdots.1, hdots.2, if_neg Bool.false_ne_true, if_neg Bool.false_ne_true, resolve]
      rfl
    show "/" ++
      "/".intercalate ((resolve [] (segment.splitOnP isSlash)).map (escape isUnsafeInPath)) = _
    rw [hcut, hresolve, List.map_singleton, String.intercalate_singleton, hpath]
  have hinside : ∀ c ∈ '/' :: segment, (!endsPath c) = true := by
    intro c hc
    rcases List.mem_cons.1 hc with rfl | hc
    · decide
    · rw [(hplain hc).2]
      rfl
  -- The path ends where the query begins.
  have hfront : ('/' :: segment ++ behind).takeWhile (!endsPath ·) = '/' :: segment := by
    have hstops : behind.takeWhile (!endsPath ·) = [] := by
      cases behind with
      | nil => rfl
      | cons c cs => rw [List.takeWhile_cons, hbehind c rfl]; rfl
    rw [List.takeWhile_append_of_pos hinside, hstops, List.append_nil]
  have hback : ('/' :: segment ++ behind).dropWhile (!endsPath ·) = behind := by
    rw [List.dropWhile_append_of_pos hinside]
    cases behind with
    | nil => rfl
    | cons c cs => rw [List.dropWhile_cons, hbehind c rfl]; rfl
  have hscheme : afterScheme plainAuthority? "http" ("//h/".toList ++ (segment ++ behind)) =
      some ⟨"http", "h", path, queryOf? behind⟩ := by
    have hauthority : plainAuthority? ['h'] = some "h" := by decide
    show (plainAuthority? ['h']).map (fun authority => Url.mk "http" authority
      (normalizePath (('/' :: segment ++ behind).takeWhile (!endsPath ·)))
      (match ('/' :: segment ++ behind).dropWhile (!endsPath ·) with
      | '?' :: q => some (escape isUnsafeInQuery (q.takeWhile (· != '#')))
      | _ => none)) = _
    rw [hauthority, hfront, hback, hnormal]
    rfl
  rw [parse?, hclean]
  show (if "http" = "http" ∨ "http" = "https" then
    afterScheme plainAuthority? "http" ("//h/".toList ++ (segment ++ behind)) else none) = _
  rw [if_pos (.inl rfl), hscheme]

/-- Without a query nothing stands behind the path. -/
theorem parse?_segment {text path : String} (segment : List Char)
    (hclean : clean text.toList = "http://h/".toList ++ segment)
    (hends : segment.all (fun c => !isSlash c && !endsPath c) = true)
    (hdots : isDoubleDot segment = false ∧ isSingleDot segment = false)
    (hpath : "/" ++ escape isUnsafeInPath segment = path) :
    parse? plainAuthority? text = some ⟨"http", "h", path, none⟩ :=
  parse?_segment_query segment [] (hclean.trans (by rw [List.append_nil])) hends nofun hdots hpath

/-- A written byte holds nothing that a query escapes. -/
theorem encodeByte_safe {b : UInt8} {c : Char} (hc : c ∈ Form.encodeByte b) :
    isUnsafeInQuery c = false := by
  have hascii : ∀ n < 128, Form.isSafe (UInt8.ofNat n) = true →
      isUnsafeInQuery (Char.ofNat n) = false := by
    decide +kernel
  unfold Form.encodeByte at hc
  split at hc
  next hsafe =>
    obtain ⟨hbound, -⟩ := Form.bounds_of_isSafe hsafe
    rw [List.mem_singleton.1 hc]
    exact hascii b.toNat hbound (by rwa [UInt8.ofNat_toNat])
  next =>
    split at hc
    · obtain rfl := List.mem_singleton.1 hc
      decide
    · exact (percent_safe hc).2

theorem encodePair_safe {name value : String} {c : Char}
    (hc : c ∈ (Form.encodePair name value).toList) :
    isUnsafeInQuery c = false := by
  have hencode {s : String} (hs : c ∈ (Form.encode s).toList) : isUnsafeInQuery c = false := by
    rw [Form.encode, String.toList_ofList] at hs
    obtain ⟨b, -, hb⟩ := List.mem_flatMap.1 hs
    exact encodeByte_safe hb
  rw [Form.encodePair, String.toList_append, String.toList_append, List.mem_append,
    List.mem_append] at hc
  rcases hc with (hc | hc) | hc
  · exact hencode hc
  · obtain rfl := List.mem_singleton.1 hc
    decide
  · exact hencode hc

@[simp] theorem withPair_path (u : Url) (name value : String) :
    (u.withPair name value).path = u.path := by
  unfold withPair
  dsimp only
  split <;> rfl

/-- The query of a URL with a pair behind it. -/
theorem withPair_query (u : Url) (name value : String) :
    (u.withPair name value).query = some (Form.encodePair name value) ∨
      ∃ q, u.query = some q ∧
        (u.withPair name value).query = some (q ++ "&" ++ Form.encodePair name value) := by
  unfold withPair
  dsimp only
  split
  · exact .inl rfl
  · exact .inl rfl
  next q _ hquery => exact .inr ⟨q, hquery, rfl⟩

/-- A URL with a pair behind its query is as clean as it was. -/
theorem Clean.withPair {u : Url} (h : u.Clean) (name value : String) :
    (u.withPair name value).Clean := by
  refine ⟨?_, ?_, fun q hq c hc => ?_⟩
  · rw [withPair_path]
    exact h.slash
  · rw [withPair_path]
    exact h.path
  · rcases u.withPair_query name value with hquery | ⟨q', hq', hquery⟩
    · rw [hquery] at hq
      cases hq
      exact encodePair_safe hc
    · rw [hquery] at hq
      cases hq
      rw [String.toList_append, String.toList_append, List.mem_append, List.mem_append] at hc
      rcases hc with (hc | hc) | hc
      · exact h.query q' hq' c hc
      · obtain rfl := List.mem_singleton.1 hc
        decide
      · exact encodePair_safe hc

/-- A pair behind the query of a URL is read behind the pairs that were there. -/
theorem decode_withPair (u : Url) (name value : String) :
    Form.decode ((u.withPair name value).query.getD "") =
      Form.decode (u.query.getD "") ++ [(name, value)] := by
  have hnone : Form.decode "" = [] := by decide
  unfold withPair
  dsimp only
  split
  next hquery =>
    rw [hquery, Option.getD_some, Option.getD_none, hnone, Form.decode_encodePair, List.nil_append]
  next hquery =>
    rw [hquery, Option.getD_some, Option.getD_some, hnone, Form.decode_encodePair, List.nil_append]
  next q _ hquery =>
    rw [hquery, Option.getD_some, Option.getD_some, Form.decode_append, Form.decode_encodePair]

/-- So it decides about its name. -/
theorem last?_withPair (u : Url) (name value : String) :
    (Form.decode ((u.withPair name value).query.getD "")).last? name = some value := by
  rw [decode_withPair, Named.last?, List.reverse_append]
  exact List.lookup_cons_self

/-! ## Targets -/

/-- What is not escaped may stand in a URI, and does not end its path or its query. -/
theorem bounds_of_safe {c : Char} (h : isUnsafe c = false) :
    Uri.isPathChar c = true ∧ c ≠ '"' ∧ Uri.notFragment c = true := by
  simp only [isUnsafe, Bool.or_eq_false_iff, decide_eq_false_iff_not] at h
  obtain ⟨⟨hlow, hhigh⟩, hmarks⟩ := h
  have hne (d : Char) (hd : "\"#<>".toList.contains d = true) : c ≠ d := by
    intro he
    rw [he, hd] at hmarks
    cases hmarks
  have hfirst : '!' ≤ c := by
    have hspace : ¬c.val.toNat ≤ 32 := hlow
    show 33 ≤ c.val.toNat
    omega
  have hdel : c ≠ '\x7f' := by
    rintro rfl
    exact hhigh (by decide)
  refine ⟨?_, hne '"' (by decide), bne_iff_ne.2 (hne '#' (by decide))⟩
  simp only [Uri.isPathChar, Bool.and_eq_true, bne_iff_ne, decide_eq_true_eq]
  exact ⟨⟨⟨hfirst, hdel⟩, hne '<' (by decide)⟩, hne '>' (by decide)⟩

theorem path_char {c : Char} (h : isUnsafeInPath c = false) :
    Uri.isPathChar c = true ∧ Uri.notFragment c = true ∧ (c != '?') = true := by
  rw [isUnsafeInPath, Bool.or_eq_false_iff] at h
  obtain ⟨hpath, -, hfragment⟩ := bounds_of_safe h.1
  refine ⟨hpath, hfragment, bne_iff_ne.2 ?_⟩
  rintro rfl
  exact absurd h.2 (by decide)

theorem query_char {c : Char} (h : isUnsafeInQuery c = false) :
    Uri.isQueryChar c = true ∧ Uri.notFragment c = true := by
  rw [isUnsafeInQuery, Bool.or_eq_false_iff] at h
  obtain ⟨hpath, hquote, hfragment⟩ := bounds_of_safe h.1
  refine ⟨?_, hfragment⟩
  rw [Uri.isQueryChar, hpath, Bool.true_and]
  exact bne_iff_ne.2 hquote

/-- The query behind a path, with its question mark. -/
def behindPath : Option String → List Char
  | none => []
  | some q => '?' :: q.toList

/-- A path and a query that need no escapes are read as they stand. -/
theorem pathAndQuery_clean {path : List Char} {query : Option String} (hne : path ≠ [])
    (hpath : ∀ c ∈ path, isUnsafeInPath c = false)
    (hquery : ∀ q ∈ query, ∀ c ∈ q.toList, isUnsafeInQuery c = false) :
    Uri.pathAndQuery (path ++ behindPath query) = .ok (String.ofList path, query) := by
  have hbehind : ∀ c ∈ behindPath query, Uri.notFragment c = true := by
    intro c hc
    cases query with
    | none => cases hc
    | some q =>
      rcases List.mem_cons.1 hc with rfl | hc
      · decide
      · exact (query_char (hquery q rfl c hc)).2
  have hkept : (path ++ behindPath query).takeWhile Uri.notFragment = path ++ behindPath query := by
    rw [List.takeWhile_append_of_pos fun c hc => (path_char (hpath c hc)).2.1,
      List.takeWhile_eq_self_iff.2 hbehind]
  have hmark : ∀ c ∈ path, (c != '?') = true := fun c hc => (path_char (hpath c hc)).2.2
  have hall : path.all Uri.isPathChar = true :=
    List.all_eq_true.2 fun c hc => (path_char (hpath c hc)).1
  have hfront : (path ++ behindPath query).takeWhile (· != '?') = path := by
    rw [List.takeWhile_append_of_pos hmark]
    cases query <;> exact List.append_nil path
  rw [Uri.pathAndQuery, hkept]
  dsimp only
  rw [hfront, List.dropWhile_append_of_pos hmark, hall, if_neg hne]
  cases query with
  | none => rfl
  | some q =>
    have hallq : q.toList.all Uri.isQueryChar = true :=
      List.all_eq_true.2 fun c hc => (query_char (hquery q rfl c hc)).1
    show (if q.toList.all Uri.isQueryChar = true then
      Except.ok (String.ofList path, some (String.ofList q.toList)) else _) = _
    rw [if_pos hallq, String.ofList_toList]

/-- The target of a clean URL reads as the path and the query of the URL, unless it is too long. -/
theorem Clean.parse_target {u : Url} (h : u.Clean)
    (hlength : u.target.utf8ByteSize ≤ Uri.maxLength) :
    Uri.parse u.target = .ok ⟨none, none, u.path, u.query⟩ := by
  have hchars : u.target.toList = u.path.toList ++ behindPath u.query := by
    rw [target, String.toList_append]
    cases u.query with
    | none => rfl
    | some q => rw [String.toList_append]; rfl
  obtain ⟨rest, hrest⟩ := List.head?_eq_some_iff.1 h.slash
  have hne : u.path.toList ≠ [] := by
    rw [hrest]
    exact nofun
  have hread : Uri.pathAndQuery ('/' :: (rest ++ behindPath u.query)) = .ok (u.path, u.query) := by
    rw [← List.cons_append, ← hrest, pathAndQuery_clean hne h.path h.query, String.ofList_toList]
  rw [Uri.parse, if_neg (Nat.not_lt.2 hlength), hchars, hrest]
  show (Uri.pathAndQuery ('/' :: (rest ++ behindPath u.query)) >>= _) = _
  rw [hread]
  rfl

end Switchboard.Http.Url
