import Teamspace.Py.IntText
import Mathlib.Data.List.TakeWhile

/-!
# URLs

`urllib.parse.urlparse` with the properties of its results that the scripts read, `geturl` after a
network location has been put in, and the origin of an absolute URL. The origin depends on the
scheme and the network location alone (`Absolute.originOf_eq`), so only a text that ends with its
network location can be extended to a URL of another origin.
-/

namespace Teamspace.Py

/-! ## `urlparse` -/

/-- The characters that `urlsplit` deletes. -/
def unsafeUrlBytes : List Char := ['\t', '\r', '\n']

/-- What `urlsplit` leaves of a text before it reads it. -/
def cleanUrl (url : List Char) : List Char :=
  (url.dropWhile fun c => decide (c.toNat ≤ 32)).filter fun c => decide (c ∉ unsafeUrlBytes)

def isSchemeChar (c : Char) : Bool := c.isAlphanum || c == '+' || c == '-' || c == '.'

/-- A letter, and characters of a scheme after it. -/
def isScheme (s : List Char) : Bool := s.head?.any Char.isAlpha && s.all isSchemeChar

/-- The scheme in front of a text, in lower case, and what follows its colon. -/
def splitScheme (url : List Char) : List Char × List Char :=
  let scheme := url.takeWhile (· != ':')
  match url.dropWhile (· != ':') with
  | [] => ([], url)
  | _ :: rest => if isScheme scheme then (scheme.map Char.toLower, rest) else ([], url)

/-- A delimiter that ends a network location. -/
def isNetlocEnd (c : Char) : Bool := c == '/' || c == '?' || c == '#'

/-- The network location in front of a text, and what follows it. -/
def splitNetloc : List Char → List Char × List Char
  | '/' :: '/' :: url =>
    (url.takeWhile fun c => !isNetlocEnd c, url.dropWhile fun c => !isNetlocEnd c)
  | url => ([], url)

/-- `s.partition(c)`, without the separator. -/
def partition (c : Char) (s : List Char) : List Char × List Char :=
  (s.takeWhile (· != c), (s.dropWhile (· != c)).tail)

/-- What follows the last occurrence of a character, or the whole text. -/
def afterLast (c : Char) (s : List Char) : List Char := (s.reverse.takeWhile (· != c)).reverse

def usesParams : List String :=
  ["", "ftp", "hdl", "prospero", "http", "https", "shttp", "rtsp", "rtsps", "rtspu", "sip", "sips",
    "mms", "sftp", "tel"]

/-- The path without the parameters of its last segment, and these. -/
def splitParams (path : List Char) : List Char × List Char :=
  let segment := afterLast '/' path
  let (name, params) := partition ';' segment
  (path.take (path.length - segment.length) ++ name, params)

/-- What `urlparse` returns. -/
structure ParseResult where
  scheme : List Char
  netloc : List Char
  path : List Char
  params : List Char
  query : List Char
  fragment : List Char

/-- `urlparse(url)`, for a network location that `urlsplit` has no objection to: its brackets
enclose an IP address, and no character of it turns into a delimiter when it is normalised. -/
def urlparse (url : List Char) : ParseResult :=
  let (scheme, url) := splitScheme (cleanUrl url)
  let (netloc, url) := splitNetloc url
  let (url, fragment) := partition '#' url
  let (url, query) := partition '?' url
  let (path, params) :=
    if String.ofList scheme ∈ usesParams ∧ ';' ∈ url then splitParams url else (url, [])
  ⟨scheme, netloc, path, params, query, fragment⟩

/-- A part of a URL after the character that introduces it, if there is any of it. -/
def introduced (c : Char) (part : List Char) : List Char :=
  if part.isEmpty then [] else c :: part

/-- `geturl()`, of a result with a network location. -/
def ParseResult.geturl (parts : ParseResult) : List Char :=
  let path := parts.path ++ introduced ';' parts.params
  let path := if path.isEmpty || path.head? == some '/' then path else '/' :: path
  (if parts.scheme.isEmpty then [] else parts.scheme ++ [':']) ++ '/' :: '/' ::
    (parts.netloc ++ (path ++ (introduced '?' parts.query ++ introduced '#' parts.fragment)))

/-- The host and the port of a network location, as texts. -/
def hostinfo (netloc : List Char) : List Char × List Char :=
  let hostinfo := afterLast '@' netloc
  match hostinfo.dropWhile (· != '[') with
  | [] => partition ':' hostinfo
  | _ :: bracketed =>
    let (hostname, rest) := partition ']' bracketed
    (hostname, (partition ':' rest).2)

/-- `port`, which is `None` if there is none. None stands for a `ValueError`. -/
def port (netloc : List Char) : Option (Option Nat) :=
  let digits := (hostinfo netloc).2
  let n : Nat := digits.foldl (fun n c => 10 * n + (c.toNat - 48)) 0
  if digits.isEmpty then some none
  else if digits.all Char.isDigit && decide (digits.length ≤ maxStrDigits) && decide (n ≤ 65535)
  then some (some n)
  else none

/-! ## Origins -/

/-- Scheme, host and port. -/
structure Origin where
  scheme : List Char
  host : List Char
  port : Nat
  deriving DecidableEq, Repr

/-- The port that a scheme stands for, if it is one of the web. -/
def defaultPort (scheme : List Char) : Option Nat :=
  if scheme = "http".toList then some 80
  else if scheme = "https".toList then some 443
  else none

/-- A character that may stand in a URL. -/
def isUrlChar (c : Char) : Bool :=
  c.isAlphanum || decide (c ∈ "-._~:/?#[]@!$&'()*+,;=%".toList) || decide (0xa0 ≤ c.toNat)

/-- The origin of a scheme and a network location. -/
def netlocOrigin (scheme netloc : List Char) : Option Origin :=
  let host := (hostinfo netloc).1
  if host.isEmpty then none
  else (defaultPort scheme).bind fun default =>
    (port netloc).map fun p => ⟨scheme, host.map Char.toLower, p.getD default⟩

/-- The origin of a text, if it is an absolute URL of the web. -/
def originOf (url : List Char) : Option Origin :=
  if url.all isUrlChar then netlocOrigin (urlparse url).scheme (urlparse url).netloc else none

/-- What follows the network location of a URL. -/
def afterNetloc (url : List Char) : List Char := (splitNetloc (splitScheme (cleanUrl url)).2).2

/-! ## Absolute URLs -/

/-- A URL that consists of a scheme, a network location and the rest. -/
structure Absolute (url scheme netloc rest : List Char) : Prop where
  text : url = scheme ++ ':' :: '/' :: '/' :: (netloc ++ rest)
  scheme : isScheme scheme = true
  netloc : ∀ c ∈ netloc, isNetlocEnd c = false
  rest : ∀ c ∈ rest.head?, isNetlocEnd c = true

section

variable {url scheme netloc rest s : List Char} {o : Origin}

/-- A URL of plain characters is left as it is. -/
theorem cleanUrl_eq (h : url.all isUrlChar = true) : cleanUrl url = url := by
  have hprinted {c : Char} (hc : c ∈ url) : 32 < c.toNat := by
    have hchar := List.all_eq_true.1 h c hc
    by_contra hle
    have hlow : ∀ n < 33, isUrlChar (Char.ofNat n) = false := by decide +kernel
    rw [← Char.ofNat_toNat c, hlow c.toNat (by omega)] at hchar
    cases hchar
  have hdrop : (url.dropWhile fun c => decide (c.toNat ≤ 32)) = url := by
    cases url with
    | nil => rfl
    | cons c url =>
      rw [List.dropWhile_cons, if_neg]
      have := hprinted (List.mem_cons_self ..)
      simpa using this
  have hdeleted : ∀ c ∈ unsafeUrlBytes, c.toNat ≤ 32 := by simp [unsafeUrlBytes]
  rw [cleanUrl, hdrop, List.filter_eq_self]
  intro c hc
  exact decide_eq_true fun hmem => absurd (hdeleted c hmem) (Nat.not_le.2 (hprinted hc))

/-- A scheme has no colon. -/
theorem colon_of_isScheme (h : isScheme s = true) : ∀ c ∈ s, (c != ':') = true := by
  intro c hc
  have hchar := List.all_eq_true.1 (Bool.and_eq_true_iff.1 h).2 c hc
  rw [bne_iff_ne]
  rintro rfl
  revert hchar
  decide

/-- The scheme is split off at its colon. -/
theorem splitScheme_eq (h : isScheme s = true) :
    splitScheme (s ++ ':' :: rest) = (s.map Char.toLower, rest) := by
  have hbefore := colon_of_isScheme h
  rw [splitScheme, List.takeWhile_append_of_pos hbefore, List.dropWhile_append_of_pos hbefore]
  simp [h]

/-- The network location is split off at its end. -/
theorem splitNetloc_eq (hnetloc : ∀ c ∈ netloc, isNetlocEnd c = false)
    (hrest : ∀ c ∈ rest.head?, isNetlocEnd c = true) :
    splitNetloc ('/' :: '/' :: (netloc ++ rest)) = (netloc, rest) := by
  have hbefore : ∀ c ∈ netloc, (!isNetlocEnd c) = true := fun c hc => by rw [hnetloc c hc]; rfl
  rw [splitNetloc, List.takeWhile_append_of_pos hbefore, List.dropWhile_append_of_pos hbefore]
  cases rest with
  | nil => simp
  | cons c rest => simp [hrest c rfl]

namespace Absolute

/-- An absolute URL is split into its scheme and the rest. -/
theorem splits (h : Absolute url scheme netloc rest) (hurl : url.all isUrlChar = true) :
    splitScheme (cleanUrl url) = (scheme.map Char.toLower, '/' :: '/' :: (netloc ++ rest)) := by
  rw [cleanUrl_eq hurl, h.text, splitScheme_eq h.scheme]

/-- The origin depends on the scheme and the network location. -/
theorem originOf_eq (h : Absolute url scheme netloc rest) (hurl : url.all isUrlChar = true) :
    originOf url = netlocOrigin (scheme.map Char.toLower) netloc := by
  have hscheme : (urlparse url).scheme = (splitScheme (cleanUrl url)).1 := rfl
  have hnetloc : (urlparse url).netloc = (splitNetloc (splitScheme (cleanUrl url)).2).1 := rfl
  rw [originOf, if_pos hurl, hscheme, hnetloc, h.splits hurl, splitNetloc_eq h.netloc h.rest]

/-- Behind its network location stands the rest. -/
theorem afterNetloc_eq (h : Absolute url scheme netloc rest) (hurl : url.all isUrlChar = true) :
    afterNetloc url = rest := by
  rw [afterNetloc, h.splits hurl, splitNetloc_eq h.netloc h.rest]

/-- A text that follows the network location leaves the scheme and the network location as they
are. -/
theorem append (h : Absolute url scheme netloc rest)
    (hs : rest ≠ [] ∨ ∀ c ∈ s.head?, isNetlocEnd c = true) :
    Absolute (url ++ s) scheme netloc (rest ++ s) where
  text := by rw [h.text]; simp
  scheme := h.scheme
  netloc := h.netloc
  rest := by
    cases rest with
    | nil => exact hs.resolve_left fun hnil => hnil rfl
    | cons c rest => exact h.rest

end Absolute

/-- A scheme that was split off stood in front of a colon. -/
theorem splitScheme_inv (h : (splitScheme url).1 ≠ []) :
    ∃ scheme, isScheme scheme = true ∧ url = scheme ++ ':' :: (splitScheme url).2 := by
  have hsplit := List.takeWhile_append_dropWhile (p := (· != ':')) (l := url)
  have hcolon := List.head?_dropWhile_not (· != ':') url
  unfold splitScheme at h ⊢
  cases hdrop : url.dropWhile (· != ':') with
  | nil => simp [hdrop] at h
  | cons c rest =>
    rw [hdrop] at hsplit hcolon h
    obtain rfl : c = ':' := by simpa using hcolon
    by_cases hscheme : isScheme (url.takeWhile (· != ':')) = true
    · exact ⟨_, hscheme, by simp [hscheme, hsplit]⟩
    · simp [hscheme] at h

/-- A network location that was split off stood between two slashes and its end. -/
theorem splitNetloc_inv (h : (splitNetloc url).1 ≠ []) :
    ∃ netloc rest, url = '/' :: '/' :: (netloc ++ rest) ∧ netloc ≠ [] ∧
      (∀ c ∈ netloc, isNetlocEnd c = false) ∧ ∀ c ∈ rest.head?, isNetlocEnd c = true := by
  unfold splitNetloc at h
  split at h
  · rename_i url
    refine ⟨_, _, by rw [List.takeWhile_append_dropWhile], h, ?_, ?_⟩
    · intro c hc
      simpa using List.mem_takeWhile_imp hc
    · intro c hc
      have hnot := List.head?_dropWhile_not (fun c => !isNetlocEnd c) url
      rw [hc] at hnot
      simpa using hnot
  · exact absurd rfl h

/-- A URL with an origin is absolute. -/
theorem absolute_of_originOf (h : originOf url = some o) :
    url.all isUrlChar = true ∧ ∃ scheme netloc rest, Absolute url scheme netloc rest ∧
      netloc ≠ [] := by
  by_cases hurl : url.all isUrlChar = true
  · rw [originOf, if_pos hurl] at h
    refine ⟨hurl, ?_⟩
    have hscheme : (urlparse url).scheme = (splitScheme (cleanUrl url)).1 := rfl
    have hnetloc : (urlparse url).netloc = (splitNetloc (splitScheme (cleanUrl url)).2).1 := rfl
    rw [hscheme, hnetloc, cleanUrl_eq hurl] at h
    have hne : (splitScheme url).1 ≠ [] := by
      intro hnil
      simp [hnil, netlocOrigin, defaultPort] at h
    obtain ⟨scheme, hscheme, htext⟩ := splitScheme_inv hne
    have hne : (splitNetloc (splitScheme url).2).1 ≠ [] := by
      intro hnil
      simp [hnil, netlocOrigin, hostinfo, afterLast, partition] at h
    obtain ⟨netloc, rest, hsecond, hnonempty, hinside, hend⟩ := splitNetloc_inv hne
    rw [hsecond] at htext
    exact ⟨scheme, netloc, rest, ⟨htext, hscheme, hinside, hend⟩, hnonempty⟩
  · rw [originOf, if_neg hurl] at h
    cases h

/-- A result with another network location is put together to an absolute URL. -/
theorem geturl_absolute {parts : ParseResult} (hscheme : isScheme parts.scheme = true)
    (hnetloc : ∀ c ∈ parts.netloc, isNetlocEnd c = false) :
    ∃ rest, Absolute parts.geturl parts.scheme parts.netloc rest := by
  have hnonempty : parts.scheme.isEmpty = false := by
    cases hparts : parts.scheme with
    | nil => rw [hparts] at hscheme; cases hscheme
    | cons => rfl
  refine ⟨_, by
    rw [ParseResult.geturl, hnonempty, if_neg Bool.false_ne_true, List.append_assoc]; rfl,
    hscheme, hnetloc, ?_⟩
  -- what follows begins with the path, or with the delimiter of the query or of the fragment
  have hintroduced {c d : Char} {part : List Char} (hd : d ∈ (introduced c part).head?) :
      d = c := by
    cases part with
    | nil => cases hd
    | cons => exact (Option.some.inj hd).symm
  intro c hc
  generalize parts.path ++ introduced ';' parts.params = path at hc
  split at hc
  · rename_i hpath
    cases path with
    | nil =>
      rw [List.nil_append, List.head?_append, Option.mem_def, Option.or_eq_some_iff] at hc
      rcases hc with hc | ⟨-, hc⟩
      · rw [hintroduced hc]; rfl
      · rw [hintroduced hc]; rfl
    | cons d path =>
      obtain rfl := Option.some.inj hc
      have : d = '/' := by simpa using hpath
      rw [this]
      rfl
  · obtain rfl := Option.some.inj hc
    rfl

/-- Slashes at the end can be left out. -/
theorem Absolute.rstrip {url : String} (h : Absolute url.toList scheme netloc rest)
    (hnetloc : netloc ≠ []) : ∃ rest', Absolute (rstrip url '/').toList scheme netloc rest' := by
  have hlast : (scheme ++ ':' :: '/' :: '/' :: netloc).reverse.dropWhile (· == '/') =
      (scheme ++ ':' :: '/' :: '/' :: netloc).reverse := by
    obtain ⟨netloc, c, rfl⟩ := List.eq_nil_or_concat netloc |>.resolve_left hnetloc
    have hc : c ≠ '/' := by
      rintro rfl
      exact absurd (h.netloc '/' (by simp)) (by decide)
    simp [hc]
  have htext : url.toList.reverse =
      rest.reverse ++ (scheme ++ ':' :: '/' :: '/' :: netloc).reverse := by
    rw [h.text]
    simp
  have hrstrip : (Py.rstrip url '/').toList = scheme ++ ':' :: '/' :: '/' ::
      (netloc ++ (rest.reverse.dropWhile (· == '/')).reverse) := by
    rw [Py.rstrip, String.toList_ofList, htext, List.dropWhile_append, hlast]
    split
    · rename_i hempty
      rw [List.isEmpty_iff.1 hempty]
      simp
    · simp
  refine ⟨_, hrstrip, h.scheme, h.netloc, fun c hc => h.rest c ?_⟩
  have hprefix := List.reverse_prefix.2 (List.dropWhile_suffix (· == '/') (l := rest.reverse))
  rw [List.reverse_reverse] at hprefix
  obtain ⟨slashes, hslashes⟩ := hprefix
  rw [← hslashes, List.head?_append, hc]
  rfl

/-- Leaving out slashes at the end keeps the origin. -/
theorem originOf_rstrip {url : String} (h : originOf url.toList = some o) :
    originOf (rstrip url '/').toList = some o := by
  obtain ⟨hurl, scheme, netloc, rest, habsolute, hnetloc⟩ := absolute_of_originOf h
  obtain ⟨rest', hrstrip⟩ := habsolute.rstrip hnetloc
  have hsublist : (rstrip url '/').toList.Sublist url.toList := by
    rw [rstrip, String.toList_ofList, ← List.reverse_sublist, List.reverse_reverse]
    exact List.dropWhile_sublist _
  have hrstripUrl : (rstrip url '/').toList.all isUrlChar = true :=
    List.all_eq_true.2 fun c hc => List.all_eq_true.1 hurl c (hsublist.subset hc)
  rw [hrstrip.originOf_eq hrstripUrl, ← habsolute.originOf_eq hurl, h]

/-- A URL with an origin has the scheme and the port of one. -/
theorem urlparse_of_originOf (h : originOf url = some o) :
    isScheme (urlparse url).scheme = true ∧ ∃ p, port (urlparse url).netloc = some p := by
  have hurl := (absolute_of_originOf h).1
  rw [originOf, if_pos hurl, netlocOrigin] at h
  split at h
  · cases h
  · obtain ⟨default, hdefault, h⟩ := Option.bind_eq_some_iff.1 h
    obtain ⟨p, hport, -⟩ := Option.map_eq_some_iff.1 h
    refine ⟨?_, p, hport⟩
    unfold defaultPort at hdefault
    split at hdefault
    · rename_i hscheme
      rw [hscheme]
      rfl
    · split at hdefault
      · rename_i hscheme
        rw [hscheme]
        rfl
      · cases hdefault

/-! ## Extensions -/

/-- A URL that goes on after the network location of a text has its origin. -/
theorem Absolute.originOf_of_append (h : Absolute url scheme netloc rest)
    (hs : rest ≠ [] ∨ ∀ c ∈ s.head?, isNetlocEnd c = true)
    (horigin : originOf (url ++ s) = some o) : originOf url = some o := by
  have hall := (absolute_of_originOf horigin).1
  have hurl : url.all isUrlChar = true := by
    rw [List.all_append] at hall
    exact (Bool.and_eq_true_iff.1 hall).1
  rw [h.originOf_eq hurl, ← (h.append hs).originOf_eq hall, horigin]

/-- After the last at sign stands the host. -/
theorem afterLast_append (s : List Char) {host : List Char} (h : '@' ∉ host) :
    afterLast '@' (s ++ '@' :: host) = host := by
  have hbefore : ∀ c ∈ host.reverse, (c != '@') = true := by
    intro c hc
    rw [bne_iff_ne]
    rintro rfl
    exact h (List.mem_reverse.1 hc)
  have htext : (s ++ '@' :: host).reverse = host.reverse ++ '@' :: s.reverse := by simp
  rw [afterLast, htext, List.takeWhile_append_of_pos hbefore]
  simp

/-- A host in place of another, which is taken for a user with its password. -/
def userHost (n : Nat) : List Char := '@' :: List.replicate (n + 1) 'e'

/-- What stands before the last at sign is no part of the origin. -/
theorem netlocOrigin_user (user : List Char) {n : Nat} :
    netlocOrigin scheme (user ++ userHost n) =
      (defaultPort scheme).map fun default => ⟨scheme, List.replicate (n + 1) 'e', default⟩ := by
  have hhost : hostinfo (user ++ userHost n) = (List.replicate (n + 1) 'e', []) := by
    have hat : '@' ∉ List.replicate (n + 1) 'e' := by simp
    rw [hostinfo, userHost, afterLast_append user hat]
    simp [partition]
  cases hport : defaultPort scheme <;> simp [netlocOrigin, hhost, port, hport]

/-- A URL that ends with its network location can be extended to one of another origin than some. -/
theorem Absolute.extend (h : Absolute url scheme netloc []) (horigin : originOf url = some o)
    (others : List Origin) : ∃ n o', originOf (url ++ userHost n) = some o' ∧ o' ∉ others := by
  obtain ⟨n, hn⟩ : ∃ n, ∀ other ∈ others, other.host.length ≤ n := by
    induction others with
    | nil => exact ⟨0, by simp⟩
    | cons other others ih =>
      obtain ⟨n, hn⟩ := ih
      refine ⟨other.host.length + n, fun o ho => ?_⟩
      rcases List.mem_cons.1 ho with rfl | ho
      · omega
      · have := hn o ho
        omega
  have hurl := (absolute_of_originOf horigin).1
  have habsolute : Absolute (url ++ userHost n) scheme (netloc ++ userHost n) [] :=
    { text := by rw [h.text]; simp
      scheme := h.scheme
      netloc := by
        intro c hc
        rcases List.mem_append.1 hc with hc | hc
        · exact h.netloc c hc
        · rcases List.mem_cons.1 hc with rfl | hc
          · rfl
          · rw [List.eq_of_mem_replicate hc]
            rfl
      rest := h.rest }
  have hhost : (userHost n).all isUrlChar = true := by
    rw [userHost, List.all_cons, List.all_replicate, if_neg (Nat.succ_ne_zero n)]
    decide
  have horigin' := habsolute.originOf_eq (by rw [List.all_append, hurl, hhost]; rfl)
  rw [netlocOrigin_user] at horigin'
  rw [h.originOf_eq hurl, netlocOrigin] at horigin
  cases hdefault : defaultPort (scheme.map Char.toLower) with
  | none =>
    rw [hdefault] at horigin
    split at horigin
    · cases horigin
    · cases horigin
  | some default =>
    rw [hdefault] at horigin'
    refine ⟨n, _, horigin', fun hmem => ?_⟩
    have := hn _ hmem
    rw [List.length_replicate] at this
    omega

end

end Teamspace.Py
