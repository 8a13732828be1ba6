import Avs.LibreText

/-!
The cookie jar. A request gets the cookies of its host and its very path; `path_match` compares strings of
different lengths, so that no cookie of a path above it is sent (`cookies_sent_iff`). A Set-Cookie header
evicts what has expired, and takes a session cookie, whose `expires` is -1, for expired (`cookies_kept_iff`).
-/
namespace Avs.Cookies
open List Option

/-- `struct tm`. The month of a text that names none is left uninitialised. -/
structure Tm where
  sec : Int
  min : Int
  hour : Int
  mday : Int
  year : Int
  mon : Option Nat

/-- What libre and the C library do: where each class of an expression matched and what (`re_regex`, of which the jar
    uses no property), `pl_u64` as a `time_t`, and what is taken off the local time that `mktime` gives. -/
structure Libc where
  reRegex : (expr : String) → (text : Bytes) → Option (List (Nat × Bytes))
  plU32 : Bytes → BitVec 32
  plU64 : Bytes → Int
  mktime : Tm → Option Int
  timezone : Int

structure Cookie where
  name : Bytes
  value : Bytes
  expires : Int
  domain : Bytes
  path : Bytes
  created : Int
  lastAccess : Int
  persistent : Bool
  hostOnly : Bool
  secure : Bool
  httpOnly : Bool
  deriving DecidableEq, Repr

structure Uri where
  scheme : Bytes
  host : Bytes
  path : Bytes

def uriExpr : String := "[a-z]+://[^:/]+[:]*[0-9]*[^?]+"

/-- The expression has to match at the start of the URI; the port is not looked at. -/
def parseUri (libc : Libc) (uri : Bytes) : Option Uri :=
  match libc.reRegex uriExpr uri with
  | some [(0, scheme), (_, host), _, _, (_, path)] => some ⟨scheme, host, path⟩
  | _ => none

def Uri.httpScheme (uri : Uri) : Bool := uri.scheme = ascii "http" || uri.scheme = ascii "https"

def Uri.isSecure (uri : Uri) : Bool := uri.scheme = ascii "https" || uri.scheme = ascii "wss"

def folded (text : Bytes) : Bytes := text.map lower

def domainMatch (str domain : Bytes) : Bool :=
  if str.length < domain.length then false
  else if str.length = domain.length then folded str = folded domain
  else
    folded (str.drop (str.length - domain.length)) = folded domain &&
      str[str.length - domain.length - 1]? = some 46

/-- `pl_cmp` is zero for strings of one length only; what comes after it is not reached. -/
def pathMatch (str path : Bytes) : Bool :=
  if str.length < path.length then false
  else if str.length = path.length then str = path
  else if str ≠ str.take path.length then false
  else str[path.length - 1]? = some 47 || path[str.length]? = some 47

/-- The tests of `cookie_jar_print_to_request` on a cookie. -/
def selected (uri : Uri) (c : Cookie) : Bool :=
  (if c.hostOnly then uri.host = c.domain else domainMatch uri.host c.domain) && pathMatch uri.path c.path &&
    !(c.secure && !uri.isSecure) && !(c.httpOnly && !uri.httpScheme)

/-- The text printed so far, the cookies in it and those of the jar that were passed. -/
structure Printing where
  text : Bytes
  cookies : List Cookie
  jar : List Cookie

def printCookie (uri : Uri) (now : Int) (out : Printing) (c : Cookie) : Printing :=
  if selected uri c then
    { text := out.text ++ (if out.cookies = [] then ascii "Cookie: " else ascii "; ") ++ c.name ++ ascii "=" ++ c.value
      cookies := out.cookies ++ [c]
      jar := out.jar ++ [{ c with lastAccess := now }] }
  else { out with jar := out.jar ++ [c] }

def printToRequest (libc : Libc) (now : Int) (jar : List Cookie) (uri : Bytes) : Except Errno Printing :=
  match parseUri libc uri with
  | none => .error .EINVAL
  | some uri =>
    let out := jar.foldl (printCookie uri now) ⟨[], [], []⟩
    .ok { out with text := out.text ++ if out.cookies = [] then [] else ascii "\r\n" }

def pair (c : Cookie) : Bytes := c.name ++ ascii "=" ++ c.value

def cookieLine : List Cookie → Bytes
  | [] => []
  | c :: rest => ascii "Cookie: " ++ pair c ++ rest.flatMap (fun c => ascii "; " ++ pair c)

def domainMatches (host : Bytes) (c : Cookie) : Bool :=
  folded host = folded c.domain || (!c.hostOnly && (46 :: folded c.domain).isSuffixOf (folded host))

def pathMatches (request path : Bytes) : Bool :=
  request = path || (path.isPrefixOf request && (path.getLast? = some 47 || request[path.length]? = some 47))

/-- The cookie is to be sent. -/
def due (uri : Uri) (c : Cookie) : Bool :=
  domainMatches uri.host c && pathMatches uri.path c.path && !(c.secure && !uri.isSecure) &&
    !(c.httpOnly && !uri.httpScheme)

def Exact (uri : Uri) (c : Cookie) : Prop := c.path = uri.path ∧ (c.hostOnly = true → c.domain = uri.host)

variable {libc : Libc} {uri : Uri} {c newc : Cookie} {jar : List Cookie} {now : Int} {str domain path : Bytes}

theorem lower_dot {c : UInt8} : lower c = 46 ↔ c = 46 := by
  unfold lower
  split
  · next upper =>
    simp only [UInt8.le_iff_toNat_le, ← UInt8.toNat_inj, UInt8.toNat_add, UInt8.reduceToNat] at upper ⊢
    omega
  · rfl

theorem domainMatch_iff :
    domainMatch str domain = true ↔ folded str = folded domain ∨ 46 :: folded domain <:+ folded str := by
  have same : folded str = folded domain → str.length = domain.length := fun eq => by
    simpa [folded] using congrArg List.length eq
  have longer : 46 :: folded domain <:+ folded str → domain.length + 1 ≤ str.length := fun suffix => by
    simpa [folded] using suffix.length_le
  rw [domainMatch]
  split
  · next short =>
    simp only [Bool.false_eq_true, false_iff, not_or]
    exact ⟨fun eq => absurd (same eq) (by omega), fun suffix => absurd (longer suffix) (by omega)⟩
  · split
    · next equal =>
      rw [decide_eq_true_eq, or_iff_left]
      exact fun suffix => absurd (longer suffix) (by omega)
    · next notShort differ =>
      -- The longer string, cut where the domain and the character before it would begin.
      obtain ⟨n, at_⟩ : ∃ n, str.length - domain.length = n + 1 := ⟨str.length - domain.length - 1, by omega⟩
      have inside : n < str.length := by omega
      have cut : str.drop n = str[n] :: str.drop (n + 1) := drop_eq_getElem_cons inside
      have length : (folded str).length - (46 :: folded domain).length = n := by
        simp only [folded, length_map, length_cons]
        omega
      rw [or_iff_right (fun eq => differ (same eq)), suffix_iff_eq_drop, length, at_, Nat.add_sub_cancel,
        Bool.and_eq_true, decide_eq_true_eq, decide_eq_true_eq, List.getElem?_eq_getElem inside, some.injEq, folded,
        folded, folded, ← map_drop, cut, map_cons, List.cons.injEq, eq_comm (a := (46 : UInt8)), lower_dot,
        and_comm, eq_comm (a := domain.map lower)]

theorem pathMatch_iff : pathMatch str path = true ↔ str = path := by
  rw [pathMatch]
  split
  · next short =>
    simp only [Bool.false_eq_true, false_iff]
    rintro rfl
    omega
  · split
    · exact decide_eq_true_iff
    · next differ =>
      have other : str ≠ path := fun eq => differ (congrArg _ eq)
      have cut : str ≠ str.take path.length := fun eq => differ (by
        have := congrArg List.length eq
        rw [length_take] at this
        omega)
      simp [cut, other]

theorem selected_iff : selected uri c = true ↔ due uri c = true ∧ Exact uri c := by
  have host : (if c.hostOnly then decide (uri.host = c.domain) else domainMatch uri.host c.domain) = true ↔
      domainMatches uri.host c = true ∧ (c.hostOnly = true → c.domain = uri.host) := by
    cases only : c.hostOnly with
    | true =>
      simp only [domainMatches, only, if_true, decide_eq_true_eq, Bool.not_true, Bool.false_and, Bool.or_false,
        forall_const]
      exact ⟨fun eq => ⟨congrArg folded eq, eq.symm⟩, fun eq => eq.2.symm⟩
    | false => simp [domainMatches, only, domainMatch_iff]
  have path : uri.path = c.path ↔ pathMatches uri.path c.path = true ∧ c.path = uri.path :=
    ⟨fun eq => ⟨by simp [pathMatches, eq], eq.symm⟩, fun eq => eq.2.symm⟩
  simp only [selected, due, Exact, Bool.and_eq_true, host, pathMatch_iff, path]
  tauto

theorem printed_cookies (out : Printing) :
    (jar.foldl (printCookie uri now) out).cookies = out.cookies ++ jar.filter (selected uri) := by
  induction jar generalizing out with
  | nil => simp
  | cons c jar ih =>
    rw [foldl_cons, ih, printCookie]
    cases chosen : selected uri c <;> simp [chosen]

theorem cookieLine_snoc (cookies : List Cookie) (c : Cookie) : cookieLine (cookies ++ [c]) =
    cookieLine cookies ++ (if cookies = [] then ascii "Cookie: " else ascii "; ") ++ c.name ++ ascii "=" ++ c.value := by
  cases cookies with
  | nil => simp [cookieLine, pair]
  | cons first rest => simp [cookieLine, pair]

theorem printed_text (out : Printing) (same : out.text = cookieLine out.cookies) :
    (jar.foldl (printCookie uri now) out).text = cookieLine (jar.foldl (printCookie uri now) out).cookies := by
  induction jar generalizing out with
  | nil => exact same
  | cons c jar ih =>
    apply ih
    rw [printCookie]
    split
    · rw [cookieLine_snoc, same]
    · exact same

/-- A request gets one header with the cookies that are printed, and none for no cookies. -/
theorem printToRequest_text {text : Bytes} {out : Printing} (printed : printToRequest libc now jar text = .ok out) :
    out.text = cookieLine out.cookies ++ if out.cookies = [] then [] else ascii "\r\n" := by
  rw [printToRequest] at printed
  split at printed
  · cases printed
  · cases printed
    exact congrArg (· ++ _) (printed_text _ rfl)

/-- The cookies printed for a URI are those that are due, in the order of the jar, exactly when all of these are cookies
    of the path itself, and of the host as spelt. -/
theorem cookies_sent_iff (libc : Libc) (now : Int) (jar : List Cookie) (text : Bytes) :
    (∃ uri out, parseUri libc text = some uri ∧ printToRequest libc now jar text = .ok out ∧
        out.cookies = jar.filter (due uri)) ↔
      ∃ uri, parseUri libc text = some uri ∧ ∀ c ∈ jar, due uri c = true → Exact uri c := by
  refine exists_congr fun uri => ?_
  rw [exists_and_left]
  refine and_congr_right fun parsed => ?_
  simp only [printToRequest, parsed, Except.ok.injEq, exists_eq_left', printed_cookies, nil_append]
  constructor
  · intro same c member isDue
    have printed : c ∈ jar.filter (selected uri) := same ▸ mem_filter.mpr ⟨member, isDue⟩
    exact (selected_iff.mp (mem_filter.mp printed).2).2
  · intro exact_
    refine filter_congr (fun c member => Bool.eq_iff_iff.mpr ?_)
    exact selected_iff.trans (and_iff_left_of_imp (exact_ c member))

def headerExpr : String := "[ \t\r\n]*[^ \t\r\n=]+=[~ \t\r\n;]*"

/-- An attribute with a value; one that is not there is left empty, which is not set. -/
def decodeValueParam (libc : Libc) (hval : Bytes) (name : String) : Bytes :=
  match libc.reRegex (";[ \t\r\n]*" ++ name ++ "=[^;]+") hval with
  | some [_, (_, value)] => value
  | _ => []

def decodeFlagParam (libc : Libc) (hval : Bytes) (name : String) : Bool :=
  match libc.reRegex (";[ \t\r\n]*" ++ name ++ "[;]*") hval with
  | some [_, (at_, semi)] => semi ≠ [] || at_ = hval.length
  | _ => false

structure RawCookie where
  name : Bytes
  value : Bytes
  expires : Bytes
  maxAge : Bytes
  domain : Bytes
  path : Bytes
  secure : Bool
  httpOnly : Bool

def decodeSetCookieHeader (libc : Libc) (hval : Bytes) : Option RawCookie :=
  match libc.reRegex headerExpr hval with
  | some [_, (_, name), (at_, value)] =>
    let rest := hval.drop (at_ + value.length)
    let domain := decodeValueParam libc rest "domain"
    some {
      name := name
      value := value
      expires := decodeValueParam libc rest "expires"
      maxAge := decodeValueParam libc rest "max-age"
      domain := if domain.head? = some 46 then domain.tail else domain
      path := decodeValueParam libc rest "path"
      secure := decodeFlagParam libc rest "secure"
      httpOnly := decodeFlagParam libc rest "httponly" }
  | _ => none

/-- The time of a day and the blanks after it. -/
def timeExpr : String := "[0-9]+:[0-9]+:[0-9]+[ \t\r\n]+"

def rfc1123Expr : String :=
  "[a-z]+,[ \t\r\n]+[0-9]+[ \t\r\n]+[a-z]+[ \t\r\n]+[0-9]+[ \t\r\n]+" ++ timeExpr ++ "GMT"

def rfc850Expr : String := "[a-z]+,[ \t\r\n]+[0-9]+-[a-z]+-[0-9]+[ \t\r\n]*" ++ timeExpr ++ "GMT"

def asctimeExpr : String := "[a-z]+[ \t\r\n]+[a-z]+[ \t\r\n]+[0-9]+[ \t\r\n]+" ++ timeExpr ++ "[0-9]+"

/-- The texts of a date: its day, month, year, hour, minute and second. -/
def dateTexts (libc : Libc) (expires : Bytes) : Option (Bytes × Bytes × Bytes × Bytes × Bytes × Bytes) :=
  match libc.reRegex rfc1123Expr expires with
  | some [_, _, day, _, month, _, year, _, hour, minute, second, _] =>
    some (day.2, month.2, year.2, hour.2, minute.2, second.2)
  | _ => match libc.reRegex rfc850Expr expires with
    | some [_, _, day, month, year, _, hour, minute, second, _] =>
      some (day.2, month.2, year.2, hour.2, minute.2, second.2)
    | _ => match libc.reRegex asctimeExpr expires with
      | some [_, _, month, _, day, _, hour, minute, second, _, year] =>
        some (day.2, month.2, year.2, hour.2, minute.2, second.2)
      | _ => none

def months : List Bytes :=
  ["jan", "feb", "mar", "apr", "may", "jun", "jul", "aug", "sep", "oct", "nov", "dec"].map ascii

/-- `parse_expires`. A year of two digits is one of this century. -/
def parseExpires (libc : Libc) (expires : Bytes) : Option Int := do
  let (day, month, year, hour, minute, second) ← dateTexts libc expires
  let number := fun text => (libc.plU32 text).toInt
  let res ← libc.mktime {
    sec := number second
    min := number minute
    hour := number hour
    mday := number day
    year := if number year < 100 then number year + 100 else number year - 1900
    mon := months.findIdx? (· = folded month) }
  some (res - libc.timezone)

/-- Steps 2 to 10: the cookie a header makes, unless it is ignored. -/
def newCookie (libc : Libc) (now : Int) (raw : RawCookie) (uri : Uri) : Option Cookie := do
  let (persistent, expires) ←
    if raw.maxAge ≠ [] then some (true, now + libc.plU64 raw.maxAge)
    else if raw.expires ≠ [] then (parseExpires libc raw.expires).map (true, ·)
    else some (false, -1)
  let (hostOnly, domain) ←
    if raw.domain = [] then some (true, uri.host)
    else if domainMatch uri.host raw.domain then some (false, raw.domain)
    else none
  if raw.httpOnly && !uri.httpScheme then none
  else some {
    name := raw.name
    value := raw.value
    expires := expires
    domain := domain
    path := if raw.path = [] then uri.path else raw.path
    created := now
    lastAccess := now
    persistent := persistent
    hostOnly := hostOnly
    secure := raw.secure
    httpOnly := raw.httpOnly }

/-- What a cookie is replaced by. -/
def key (c : Cookie) : Bytes × Bytes × Bytes := (c.name, folded c.domain, c.path)

/-- Steps 11 and 12: the pass over the jar, with the time of creation that the cookie takes over, and whether the cookie
    was added at the end. -/
def replace (http : Bool) (now : Int) (newc : Cookie) : (created : Int) → List Cookie → List Cookie × Bool
  | created, [] => ([{ newc with created := created }], true)
  | created, oldc :: rest =>
    if key newc = key oldc then
      if !http && oldc.httpOnly then (oldc :: rest, false) else replace http now newc oldc.created rest
    else if oldc.expires < now then replace http now newc created rest
    else (oldc :: (replace http now newc created rest).1, (replace http now newc created rest).2)

/-- A header with the URI of its response and the time it is processed. -/
structure Header where
  hval : Bytes
  uri : Bytes
  now : Int

/-- The cookie of a header and whether its URI is one of HTTP. -/
def Header.cookie (libc : Libc) (h : Header) : Option (Cookie × Bool) := do
  let raw ← decodeSetCookieHeader libc h.hval
  let uri ← parseUri libc h.uri
  (newCookie libc h.now raw uri).map (·, uri.httpScheme)

/-- The jar afterwards, and whether the cookie was accepted. -/
def processSetCookie (libc : Libc) (jar : List Cookie) (h : Header) : List Cookie × Bool :=
  match h.cookie libc with
  | some (newc, http) => replace http h.now newc newc.created jar
  | none => (jar, false)

def jarAfter (libc : Libc) (headers : List Header) : List Cookie :=
  headers.foldl (fun jar h => (processSetCookie libc jar h).1) []

/-- The cookie keeps the pass from going on: it may not be replaced over another scheme than HTTP. -/
def blocks (made : Cookie × Bool) (oldc : Cookie) : Bool := key made.1 = key oldc && !made.2 && oldc.httpOnly

/-- After the header no two cookies have the same key; a cookie is gone only if the new one was accepted in its place or
    its time has passed; and a rejected header changes nothing. -/
def Undisturbed (libc : Libc) (jar : List Cookie) (h : Header) : Prop :=
  ((processSetCookie libc jar h).1.map key).Nodup ∧
    (∀ c ∈ jar, c ∉ (processSetCookie libc jar h).1 →
      ((processSetCookie libc jar h).2 = true ∧ ∃ made, h.cookie libc = some made ∧ key made.1 = key c) ∨
        c.persistent = true ∧ c.expires < h.now) ∧
    ((processSetCookie libc jar h).2 = false → (processSetCookie libc jar h).1 = jar)

/-- The cookies of other keys that the pass finds expired are persistent, and it finds none before a cookie that blocks
    it. -/
def Spares (libc : Libc) (jar : List Cookie) (h : Header) : Prop :=
  ∀ made ∈ h.cookie libc, ∀ c ∈ jar.takeWhile (fun oldc => !blocks made oldc), key made.1 ≠ key c →
    c.expires < h.now → c.persistent = true ∧ ∀ oldc ∈ jar, blocks made oldc = false

def kept (now : Int) (newc c : Cookie) : Bool := key newc ≠ key c && !(c.expires < now)

section
variable {http : Bool} {created : Int} {h : Header}

theorem replace_cons (free : blocks (newc, http) c = false) : ∃ created', replace http now newc created (c :: jar) =
      ([c].filter (kept now newc) ++ (replace http now newc created' jar).1,
        (replace http now newc created' jar).2) := by
  rw [replace]
  by_cases same : key newc = key c
  · have free : ¬ (!http && c.httpOnly) = true := by simpa [blocks, same] using free
    exact ⟨c.created, by simp [same, free, kept]⟩
  · by_cases old : c.expires < now
    · exact ⟨created, by simp [same, old, kept]⟩
    · exact ⟨created, by simp [same, old, kept]⟩

/-- The pass gets to the end of the jar, or to a cookie that blocks it. -/
theorem replace_cases : (∃ created', (∀ c ∈ jar, blocks (newc, http) c = false) ∧ replace http now newc created jar =
        (jar.filter (kept now newc) ++ [{ newc with created := created' }], true)) ∨
      ∃ front oldc back, jar = front ++ oldc :: back ∧ (∀ c ∈ front, blocks (newc, http) c = false) ∧
        blocks (newc, http) oldc = true ∧
        replace http now newc created jar = (front.filter (kept now newc) ++ oldc :: back, false) := by
  induction jar generalizing created with
  | nil => exact .inl ⟨created, by simp, rfl⟩
  | cons c jar ih =>
    cases blocked : blocks (newc, http) c with
    | true =>
      have stops : (key newc = key c ∧ http = false) ∧ c.httpOnly = true := by simpa [blocks] using blocked
      exact .inr ⟨[], c, jar, rfl, by simp, blocked, by simp [replace, stops]⟩
    | false =>
      obtain ⟨created', goes⟩ := @replace_cons c newc jar now http created blocked
      rw [goes]
      rcases @ih created' with ⟨last, none_, same⟩ | ⟨front, oldc, back, rfl, none_, stops, same⟩
      · refine .inl ⟨last, forall_mem_cons.mpr ⟨blocked, none_⟩, ?_⟩
        rw [same, ← append_assoc, ← filter_append]
        rfl
      · refine .inr ⟨c :: front, oldc, back, rfl, forall_mem_cons.mpr ⟨blocked, none_⟩, stops, ?_⟩
        rw [same, ← append_assoc, ← filter_append]
        rfl

theorem processSetCookie_distinct (distinct : (jar.map key).Nodup) :
    ((processSetCookie libc jar h).1.map key).Nodup := by
  rw [processSetCookie]
  rcases h.cookie libc with _ | ⟨newc, http⟩
  · exact distinct
  · simp only
    rcases @replace_cases newc jar h.now http newc.created with ⟨last, -, after⟩ | ⟨front, oldc, back, rfl, -, -, after⟩
    · rw [after, map_append, nodup_append]
      refine ⟨distinct.sublist (filter_sublist.map key), by simp, ?_⟩
      rintro k member k' added rfl
      obtain ⟨c, keeps, rfl⟩ := List.mem_map.mp member
      have differ : key newc ≠ key c ∧ h.now ≤ c.expires := by simpa [kept] using (mem_filter.mp keeps).2
      exact differ.1 (mem_singleton.mp added).symm
    · rw [after]
      exact distinct.sublist ((filter_sublist.append (List.Sublist.refl _)).map key)

theorem undisturbed_iff (distinct : (jar.map key).Nodup) : Undisturbed libc jar h ↔ Spares libc jar h := by
  rw [Undisturbed, and_iff_right (processSetCookie_distinct distinct), Spares, processSetCookie]
  rcases h.cookie libc with _ | ⟨newc, http⟩
  · exact iff_of_true ⟨fun c member gone => absurd member gone, fun _ => rfl⟩ (fun _ none_ => nomatch none_)
  · simp only [mem_def, some.injEq, forall_eq', exists_eq_left']
    rcases @replace_cases newc jar h.now http newc.created with
      ⟨last, none_, after⟩ | ⟨front, oldc, back, rfl, none_, stops, after⟩
    · have whole : jar.takeWhile (fun oldc => !blocks (newc, http) oldc) = jar :=
        takeWhile_eq_self_iff.mpr (by simpa using none_)
      rw [after, whole]
      refine ⟨fun undisturbed c member differ old => ⟨?_, none_⟩, fun spares => ⟨?_, by simp⟩⟩
      · have gone : c ∉ jar.filter (kept h.now newc) ++ [{ newc with created := last }] := by
          rw [mem_append, mem_singleton]
          rintro (keeps | rfl)
          · simp [kept, old] at keeps
          · exact differ rfl
        exact ((undisturbed.1 c member gone).resolve_left (fun replaced => differ replaced.2)).1
      · intro c member gone
        by_cases same : key newc = key c
        · exact .inl ⟨rfl, same⟩
        · have old : c.expires < h.now := by
            by_contra late
            exact gone (mem_append_left _ (mem_filter.mpr ⟨member, by simp [kept, same, late]⟩))
          exact .inr ⟨(spares c member same old).1, old⟩
    · have visited : (front ++ oldc :: back).takeWhile (fun oldc => !blocks (newc, http) oldc) = front := by
        rw [takeWhile_append_of_pos (by simpa using none_), takeWhile_cons_of_neg (by simp [stops]),
          append_nil]
      have taken : (key newc = key oldc ∧ http = false) ∧ oldc.httpOnly = true := by simpa [blocks] using stops
      have others : ∀ c ∈ front, key newc ≠ key c := by
        intro c member same
        rw [map_append, nodup_append] at distinct
        exact distinct.2.2 _ (List.mem_map_of_mem member) _ (by simp) (same.symm.trans taken.1.1)
      have unblocked : ¬ ∀ c ∈ front ++ oldc :: back, blocks (newc, http) c = false := fun free => by
        simp [free oldc (by simp)] at stops
      rw [after, visited]
      simp only [unblocked, and_false, Bool.false_eq_true, false_and, false_or, forall_const]
      refine ⟨fun undisturbed c member _ old => ?_, fun spares => ?_⟩
      · have keeps := (mem_filter.mp ((append_cancel_right undisturbed.2).symm ▸ member)).2
        simp [kept, old] at keeps
      · have unchanged : front.filter (kept h.now newc) = front := filter_eq_self.mpr (fun c member => by
          have late : ¬ c.expires < h.now := fun old => spares c member (others c member) old
          simp [kept, others c member, late])
        rw [unchanged]
        exact ⟨fun c member gone => absurd member gone, rfl⟩

theorem jarAfter_distinct (headers : List Header) : ((jarAfter libc headers).map key).Nodup := by
  have run : ∀ jar : List Cookie, (jar.map key).Nodup →
      ((headers.foldl (fun jar h => (processSetCookie libc jar h).1) jar).map key).Nodup := by
    induction headers with
    | nil => exact fun _ distinct => distinct
    | cons h headers ih => exact fun _ distinct => ih _ (processSetCookie_distinct distinct)
  exact run [] nodup_nil

end

/-- Headers leave the other cookies of a jar alone, from a new jar on, exactly when each of them finds no session cookie
    and nothing before one that blocks it expired. -/
theorem cookies_kept_iff (libc : Libc) (headers : List Header) :
    (∀ front h back, headers = front ++ h :: back → Undisturbed libc (jarAfter libc front) h) ↔
      ∀ front h back, headers = front ++ h :: back → Spares libc (jarAfter libc front) h :=
  forall_congr' fun front => forall_congr' fun _ => forall_congr' fun _ => forall_congr' fun _ =>
    undisturbed_iff (jarAfter_distinct front)

/-- Where each class of an expression matched; a single character has a most of one. -/
def captures : (at_ : Nat) → List LibreText.Item → List Bytes → List (Nat × Bytes)
  | at_, item :: items, run :: runs =>
    (if item.max = none then [(at_, run)] else []) ++ captures (at_ + run.length) items runs
  | _, _, _ => []

/-- The expressions for a URI and for a header without quotes. -/
def expressions : List (String × List LibreText.Item) :=
  let char := fun c => ⟨(· = c), 1, some 1⟩
  let apart := fun text => (! (ascii text).contains ·)
  let blanks := ⟨((ascii " \t\r\n").contains ·), 0, none⟩
  [(uriExpr, [⟨LibreText.inRange 97 122, 1, none⟩, char 58, char 47, char 47, ⟨apart ":/", 1, none⟩,
    ⟨(· = 58), 0, none⟩,
      ⟨LibreText.isDigit, 0, none⟩, ⟨apart "?", 1, none⟩]),
   (headerExpr, [blanks, ⟨apart " \t\r\n=", 1, none⟩, char 61, ⟨apart " \t\r\n;", 0, none⟩])]

/-- No other expression matches in a header without attributes. -/
def plainLibc : Libc where
  reRegex expr text := (expressions.lookup expr).bind (fun items =>
    (LibreText.reRegex items text).map (fun found => captures found.1 items found.2))
  plU32 _ := 0
  plU64 _ := 0
  mktime _ := none
  timezone := 0

def header (hval : String) (now : Int) : Header := ⟨ascii hval, ascii "http://h.de/", now⟩

/-- A cookie of the path `/` is due for a request below it, and not sent. -/
theorem cookie_above_not_sent : let uri : Uri := ⟨ascii "http", ascii "h.de", ascii "/a"⟩
    ∃ out, parseUri plainLibc (ascii "http://h.de/a") = some uri ∧
      printToRequest plainLibc 2 (jarAfter plainLibc [header "a=1" 1]) (ascii "http://h.de/a") = .ok out ∧
      out.text = [] ∧ out.cookies = [] ∧ (jarAfter plainLibc [header "a=1" 1]).filter (due uri) ≠ [] :=
  ⟨_, by rfl, rfl, by decide +kernel, by decide +kernel, by decide +kernel⟩

/-- The second header drops the session cookie of the first. -/
theorem session_cookie_dropped : (jarAfter plainLibc [header "a=1" 1]).map (·.name) = [ascii "a"] ∧
      (jarAfter plainLibc [header "a=1" 1]).map (·.persistent) = [false] ∧
      (jarAfter plainLibc [header "a=1" 1, header "b=2" 2]).map (·.name) = [ascii "b"] ∧
      ¬ Undisturbed plainLibc (jarAfter plainLibc [header "a=1" 1]) (header "b=2" 2) := by
  refine ⟨by decide +kernel, by decide +kernel, by decide +kernel, ?_⟩
  rw [undisturbed_iff (jarAfter_distinct _), Spares]
  decide +kernel

end Avs.Cookies
