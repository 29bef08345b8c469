/-
# Status codes and header texts

The numbers and the reason phrases of the status codes, and the two texts made of them:
the first line of a response and a header. `reasonPhrase` has a phrase for exactly the
numbers that are codes, and a status line names one code.
-/

import ObmcWebapp.Library.Wire

namespace ObmcWebapp.Http

/-- The bytes of a `std::string`. -/
abbrev Bytes := List UInt8

def bytes (text : String) : Bytes := text.toList.flatMap String.utf8EncodeChar

@[simp]
theorem bytes_append (first second : String) :
    bytes (first ++ second) = bytes first ++ bytes second := by
  simp [bytes]

/-- A character below 128 is one byte. -/
theorem utf8EncodeChar_ascii {letter : Char} (hascii : letter.toNat < 128) :
    String.utf8EncodeChar letter = [UInt8.ofNat letter.toNat] := by
  have hle : letter.toNat ≤ 127 := Nat.le_of_lt_succ hascii
  simp [String.utf8EncodeChar, hle]

theorem bytes_ascii {text : String} (hascii : ∀ letter ∈ text.toList, letter.toNat < 128) :
    bytes text = text.toList.map fun letter => UInt8.ofNat letter.toNat := by
  rw [bytes, List.map_eq_flatMap]
  exact List.flatMap_congr fun letter hmem => utf8EncodeChar_ascii (hascii letter hmem)

/-- The number some digits denote. -/
def decimal (digits : Bytes) : ℕ :=
  digits.foldl (fun number digit => 10 * number + (digit.toNat - 48)) 0

theorem digit_of_mem {number : ℕ} {letter : Char} (hmem : letter ∈ (toString number).toList) :
    48 ≤ letter.toNat ∧ letter.toNat ≤ 57 := by
  rw [show toString number = number.repr from rfl, Nat.toList_repr] at hmem
  have hdigit := Nat.isDigit_of_mem_toDigits (by decide) (by decide) hmem
  simpa [Char.isDigit, UInt32.le_iff_toNat_le] using hdigit

theorem bytes_toString (number : ℕ) : bytes (toString number) =
    (Nat.toDigits 10 number).map fun letter => UInt8.ofNat letter.toNat := by
  rw [bytes_ascii fun letter hmem => (digit_of_mem hmem).2.trans_lt (by decide)]
  rw [show toString number = number.repr from rfl, Nat.toList_repr]

/-- A number is written in digits. -/
theorem byte_of_mem {number : ℕ} {byte : UInt8} (hmem : byte ∈ bytes (toString number)) :
    48 ≤ byte.toNat ∧ byte.toNat ≤ 57 := by
  rw [bytes_ascii fun letter hmem => (digit_of_mem hmem).2.trans_lt (by decide)] at hmem
  obtain ⟨letter, hletter, rfl⟩ := List.mem_map.mp hmem
  have hdigit := digit_of_mem hletter
  rw [UInt8.toNat_ofNat_of_lt' (hdigit.2.trans_lt (by decide))]
  exact hdigit

theorem decimal_toString (number : ℕ) : decimal (bytes (toString number)) = number := by
  have hdigit : ∀ letter ∈ Nat.toDigits 10 number,
      (UInt8.ofNat letter.toNat).toNat = letter.toNat := by
    intro letter hmem
    have hletter : letter ∈ (toString number).toList := by
      rw [show toString number = number.repr from rfl, Nat.toList_repr]
      exact hmem
    exact UInt8.toNat_ofNat_of_lt' ((digit_of_mem hletter).2.trans_lt (by decide))
  calc decimal (bytes (toString number))
      = Nat.ofDigitChars 10 (Nat.toDigits 10 number) 0 := by
        rw [bytes_toString, decimal, List.foldl_map, Nat.ofDigitChars_eq_foldl]
        apply List.foldl_ext
        intro sofar letter hmem
        rw [hdigit letter hmem]
        rfl
    _ = number := Nat.ofDigitChars_ten_toDigits

namespace headers

def http : String := "HTTP/1.1"
def contentType : String := "Content-Type"
def contentLength : String := "Content-Length"
def date : String := "Date"

end headers

namespace content_types

def applicationJson : String := "application/json; charset=UTF-8"

end content_types

namespace statuses

inductive Code
  | continueRequest
  | switchingProtocols
  | processing
  | earlyHints
  | ok
  | created
  | accepted
  | nonAuthoritativeInformation
  | noContent
  | resetContent
  | partialContent
  | multiStatus
  | alreadyReported
  | imUsed
  | multipleChoices
  | movedPermanently
  | found
  | seeOther
  | notModified
  | useProxy
  | temporaryRedirect
  | permanentRedirect
  | badRequest
  | unauthorized
  | paymentRequired
  | forbidden
  | notFound
  | methodNotAllowed
  | notAcceptable
  | proxyAuthenticationRequired
  | requestTimeout
  | conflict
  | gone
  | lengthRequired
  | preconditionFailed
  | payloadTooLarge
  | uriTooLong
  | unsupportedMediaType
  | rangeNotSatisfiable
  | expectationFailed
  | imATeapot
  | unprocessableEntity
  | locked
  | failedDependency
  | upgradeRequired
  | preconditionRequired
  | tooManyRequests
  | requestHeaderFieldsTooLarge
  | unavailableForLegalReasons
  | internalServerError
  | notImplemented
  | badGateway
  | serviceUnavailable
  | gatewayTimeout
  | httpVersionNotSupported
  | variantAlsoNegotiates
  | insufficientStorage
  | loopDetected
  | notExtended
  | networkAuthenticationRequired
  deriving DecidableEq, Repr

/-- The enumerators and their values. -/
def codes : List (Code × ℕ) := [
  (.continueRequest, 100), (.switchingProtocols, 101), (.processing, 102), (.earlyHints, 103),
  (.ok, 200), (.created, 201), (.accepted, 202), (.nonAuthoritativeInformation, 203),
  (.noContent, 204), (.resetContent, 205), (.partialContent, 206), (.multiStatus, 207),
  (.alreadyReported, 208), (.imUsed, 226),
  (.multipleChoices, 300), (.movedPermanently, 301), (.found, 302), (.seeOther, 303),
  (.notModified, 304), (.useProxy, 305), (.temporaryRedirect, 307), (.permanentRedirect, 308),
  (.badRequest, 400), (.unauthorized, 401), (.paymentRequired, 402), (.forbidden, 403),
  (.notFound, 404), (.methodNotAllowed, 405), (.notAcceptable, 406),
  (.proxyAuthenticationRequired, 407), (.requestTimeout, 408), (.conflict, 409), (.gone, 410),
  (.lengthRequired, 411), (.preconditionFailed, 412), (.payloadTooLarge, 413),
  (.uriTooLong, 414), (.unsupportedMediaType, 415), (.rangeNotSatisfiable, 416),
  (.expectationFailed, 417), (.imATeapot, 418), (.unprocessableEntity, 422), (.locked, 423),
  (.failedDependency, 424), (.upgradeRequired, 426), (.preconditionRequired, 428),
  (.tooManyRequests, 429), (.requestHeaderFieldsTooLarge, 431),
  (.unavailableForLegalReasons, 451),
  (.internalServerError, 500), (.notImplemented, 501), (.badGateway, 502),
  (.serviceUnavailable, 503), (.gatewayTimeout, 504), (.httpVersionNotSupported, 505),
  (.variantAlsoNegotiates, 506), (.insufficientStorage, 507), (.loopDetected, 508),
  (.notExtended, 510), (.networkAuthenticationRequired, 511)]

/-- The value of an enumerator. -/
def Code.value (code : Code) : ℕ := (codes.lookup code).getD 0

def toInt (code : Code) : ℤ := code.value

/-- The cases of `reasonPhrase`. -/
def reasonPhrases : List (ℤ × String) := [
  (100, "Continue"), (101, "Switching Protocols"), (102, "Processing"), (103, "Early Hints"),
  (200, "OK"), (201, "Created"), (202, "Accepted"), (203, "Non-Authoritative Information"),
  (204, "No Content"), (205, "Reset Content"), (206, "Partial Content"), (207, "Multi-Status"),
  (208, "Already Reported"), (226, "IM Used"),
  (300, "Multiple Choices"), (301, "Moved Permanently"), (302, "Found"), (303, "See Other"),
  (304, "Not Modified"), (305, "Use Proxy"), (307, "Temporary Redirect"),
  (308, "Permanent Redirect"),
  (400, "Bad Request"), (401, "Unauthorized"), (402, "Payment Required"), (403, "Forbidden"),
  (404, "Not Found"), (405, "Method Not Allowed"), (406, "Not Acceptable"),
  (407, "Proxy Authentication Required"), (408, "Request Timeout"), (409, "Conflict"),
  (410, "Gone"), (411, "Length Required"), (412, "Precondition Failed"),
  (413, "Payload Too Large"), (414, "URI Too Long"), (415, "Unsupported Media Type"),
  (416, "Range Not Satisfiable"), (417, "Expectation Failed"), (418, "I'm a teapot"),
  (422, "Unprocessable Entity"), (423, "Locked"), (424, "Failed Dependency"),
  (426, "Upgrade Required"), (428, "Precondition Required"), (429, "Too Many Requests"),
  (431, "Request Header Fields Too Large"), (451, "Unavailable For Legal Reasons"),
  (500, "Internal Server Error"), (501, "Not Implemented"), (502, "Bad Gateway"),
  (503, "Service Unavailable"), (504, "Gateway Time-out"), (505, "HTTP Version Not Supported"),
  (506, "Variant Also Negotiates"), (507, "Insufficient Storage"), (508, "Loop Detected"),
  (510, "Not Extended"), (511, "Network Authentication Required")]

/-- `reasonPhrase`; any other number has the empty phrase. -/
def reasonPhrase (code : ℤ) : String := (reasonPhrases.lookup code).getD ""

end statuses

open statuses

def header (name value : String) : String := name ++ ": " ++ value

def headerStatus (code : Code) : String :=
  headers.http ++ " " ++ toString (toInt code) ++ " " ++ reasonPhrase (toInt code)

/-- The blank between the parts of a status line. -/
def blank : UInt8 := 32

/-- The number in a status line: the digits between its first two blanks. -/
def numberOf (line : Bytes) : ℕ :=
  decimal (((line.dropWhile (· ≠ blank)).drop 1).takeWhile (· ≠ blank))

/-- The code a status line names. -/
def codeOf? (line : Bytes) : Option Code :=
  (codes.find? fun code => code.2 = numberOf line).map Prod.fst

theorem numberOf_headerStatus (code : Code) :
    numberOf (bytes (headerStatus code)) = code.value := by
  have hline : bytes (headerStatus code) = bytes headers.http ++
      (blank :: (bytes (toString code.value) ++
        (blank :: bytes (reasonPhrase (toInt code))))) := by
    rw [headerStatus, bytes_append, bytes_append, bytes_append, bytes_append]
    simp only [List.append_assoc]
    rfl
  have hhttp : (bytes headers.http).all (fun byte => decide (byte ≠ blank)) = true := by decide
  rw [List.all_eq_true] at hhttp
  have hdigits : ∀ byte ∈ bytes (toString code.value), decide (byte ≠ blank) = true := by
    intro byte hmem
    apply decide_eq_true
    rintro rfl
    exact absurd (byte_of_mem hmem).1 (by decide)
  rw [numberOf, hline, List.dropWhile_append_of_pos hhttp, List.dropWhile_cons_of_neg (by decide),
    List.drop_one, List.tail_cons, List.takeWhile_append_of_pos hdigits,
    List.takeWhile_cons_of_neg (by decide), List.append_nil, decimal_toString]

theorem codeOf?_headerStatus (code : Code) : codeOf? (bytes (headerStatus code)) = some code := by
  rw [codeOf?, numberOf_headerStatus]
  cases code <;> rfl

end ObmcWebapp.Http
