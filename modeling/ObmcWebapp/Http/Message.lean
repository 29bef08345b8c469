/-
# Responses on the wire

What a connection writes for a response: the status line, the headers and the body. The
response keeps two buffers, which only grow; the connection adds three headers of its
own, one of them the length of the body, before it writes them.

A reader that knows the format finds the status, the headers and the body again, and
stops exactly where the response ends.
-/

import ObmcWebapp.Core.Response
import ObmcWebapp.Http.Headers

namespace ObmcWebapp.Http

open ObmcWebapp.Core

def newline : UInt8 := 10
def carriageReturn : UInt8 := 13
def colon : UInt8 := 58

def endHeaderLine : Bytes := [carriageReturn, newline]

/-- The code of a status. -/
def code : Core.Code → statuses.Code
  | .ok => .ok
  | .unauthorized => .unauthorized
  | .notFound => .notFound

/-- One line of the header buffer. -/
def headerLine (entry : String × String) : Bytes :=
  bytes (header entry.1 entry.2) ++ endHeaderLine

def headerBuffer (response : Response) : Bytes := response.headers.flatMap headerLine

/-- The body, where `dump` is the text of a JSON value. -/
def internalBuffer (dump : Json → Bytes) (response : Response) : Bytes :=
  response.body.flatMap dump

def totalSize (dump : Json → Bytes) (response : Response) : ℕ :=
  (internalBuffer dump response).length

def getHeaders (response : Response) : Bytes := headerBuffer response ++ endHeaderLine

def getBody (dump : Json → Bytes) (response : Response) : Bytes := internalBuffer dump response

/-- What `gmtime_r` breaks a time down to. -/
structure Tm where
  weekDay : Fin 7
  monthDay : ℕ
  month : Fin 12
  year : ℕ
  hour : ℕ
  minute : ℕ
  second : ℕ

def weekDays : Fin 7 → String := !["Sun", "Mon", "Tue", "Wed", "Thu", "Fri", "Sat"]

def months : Fin 12 → String :=
  !["Jan", "Feb", "Mar", "Apr", "May", "Jun", "Jul", "Aug", "Sep", "Oct", "Nov", "Dec"]

/-- A number of two digits. -/
def twoDigits (number : ℕ) : String :=
  (if number < 10 then "0" else "") ++ toString number

/-- `getFormattedCurrentDate`. -/
def getFormattedCurrentDate (tm : Tm) : String :=
  weekDays tm.weekDay ++ ", " ++ twoDigits tm.monthDay ++ " " ++ months tm.month ++ " " ++
    toString tm.year ++ " " ++ twoDigits tm.hour ++ ":" ++ twoDigits tm.minute ++ ":" ++
    twoDigits tm.second ++ " GMT"

/-- No line ends in a number. -/
theorem carriageReturn_not_mem_toString (number : ℕ) :
    carriageReturn ∉ bytes (toString number) := by
  intro hmem
  exact absurd (byte_of_mem hmem).1 (by decide)

theorem carriageReturn_not_mem_date (tm : Tm) :
    carriageReturn ∉ bytes (getFormattedCurrentDate tm) := by
  have hweekDay : ∀ weekDay, carriageReturn ∉ bytes (weekDays weekDay) := by decide
  have hmonth : ∀ month, carriageReturn ∉ bytes (months month) := by decide
  have hpadding : ∀ number : ℕ,
      carriageReturn ∉ bytes (if number < 10 then "0" else "") := by
    intro number
    split_ifs <;> decide
  have hblank : carriageReturn ∉ bytes " " := by decide
  have hcomma : carriageReturn ∉ bytes ", " := by decide
  have hcolon : carriageReturn ∉ bytes ":" := by decide
  have hzone : carriageReturn ∉ bytes " GMT" := by decide
  simp only [getFormattedCurrentDate, twoDigits, bytes_append, List.mem_append, not_or]
  simp only [hweekDay, hmonth, hpadding, hblank, hcomma, hcolon, hzone,
    carriageReturn_not_mem_toString, not_false_eq_true, and_self]

/-- The response with the headers of the connection. -/
def withHeaders (dump : Json → Bytes) (tm : Tm) (response : Response) : Response :=
  ((response.setHeader headers.contentType content_types.applicationJson).setHeader
    headers.contentLength (toString (totalSize dump response))).setHeader
    headers.date (getFormattedCurrentDate tm)

/-- `writeHeader`: what it writes and the response it leaves. -/
def writeHeader (dump : Json → Bytes) (tm : Tm) (response : Response) : Bytes × Response :=
  let response' := withHeaders dump tm response
  (bytes (headerStatus (code response.status)) ++ [newline] ++ getHeaders response', response')

/-- All that is written for a response. -/
def written (dump : Json → Bytes) (tm : Tm) (response : Response) : Bytes :=
  (writeHeader dump tm response).1 ++ getBody dump (writeHeader dump tm response).2

/-- A response as a reader has it. -/
structure Message where
  status : statuses.Code
  headers : List (Bytes × Bytes)
  body : Bytes

def statusLine : Wire UInt8 statuses.Code :=
  (Wire.upTo newline []).encoded (fun _ => True) (fun code => bytes (headerStatus code)) codeOf?
    fun code _ => codeOf?_headerStatus code

/-- A name, a colon and a blank, a value, the end of the line. -/
def headerFormat : Wire UInt8 (Bytes × Bytes) :=
  .pair (.upTo colon [blank]) (.upTo carriageReturn [newline])

/-- The status line, the headers and an empty line. -/
def headFormat : Wire UInt8 (statuses.Code × List (Bytes × Bytes)) :=
  .pair statusLine (.listUpTo headerFormat (.mark endHeaderLine))

/-- The number of the first length header. -/
def contentLengthOf (headers : List (Bytes × Bytes)) : ℕ :=
  ((headers.lookup (bytes Http.headers.contentLength)).map decimal).getD 0

/-- The body that goes with a head. -/
def bodyFormat (head : statuses.Code × List (Bytes × Bytes)) : Wire UInt8 Message :=
  (Wire.exactly (contentLengthOf head.2)).encoded
    (fun message => (message.status, message.headers) = head) Message.body
    (fun body => some ⟨head.1, head.2, body⟩) fun message hhead => by rw [← hhead]

/-- The head decides the length of the body. -/
def messageFormat : Wire UInt8 Message :=
  .keyed headFormat (fun message => (message.status, message.headers)) bodyFormat

/-- A header that stays on its line and is not the length. -/
structure PlainHeader (entry : String × String) : Prop where
  name : colon ∉ bytes entry.1 ∧ carriageReturn ∉ bytes entry.1
  value : carriageReturn ∉ bytes entry.2
  other : bytes entry.1 ≠ bytes headers.contentLength

/-- A header as a reader has it. -/
def asRead (entry : String × String) : Bytes × Bytes := (bytes entry.1, bytes entry.2)

/-- The message a response is written as. -/
def messageOf (dump : Json → Bytes) (tm : Tm) (response : Response) : Message where
  status := code response.status
  headers := (withHeaders dump tm response).headers.map asRead
  body := internalBuffer dump response

theorem headerFormat_write (entry : String × String) :
    headerFormat.write (asRead entry) = headerLine entry := by
  have hseparator : bytes ": " = [colon, blank] := by decide
  simp [headerFormat, Wire.pair, Wire.upTo, asRead, headerLine, header, hseparator, endHeaderLine]

/-- The header buffer is written header by header. -/
theorem headerBuffer_eq (response : Response) :
    headerBuffer response = (response.headers.map asRead).flatMap headerFormat.write := by
  rw [headerBuffer, List.flatMap_map]
  exact List.flatMap_congr fun entry _ => (headerFormat_write entry).symm

/-- The connection writes the message of the response. -/
theorem written_eq (dump : Json → Bytes) (tm : Tm) (response : Response) :
    written dump tm response = messageFormat.write (messageOf dump tm response) := by
  have hhead : (writeHeader dump tm response).1 =
      headFormat.write (code response.status, (withHeaders dump tm response).headers.map asRead) := by
    rw [writeHeader, getHeaders, headerBuffer_eq]
    rfl
  have hbody : getBody dump (writeHeader dump tm response).2 = internalBuffer dump response := rfl
  rw [written, hhead, hbody]
  rfl

/-- A line begins with a byte of the name or with the colon, never with a line end. -/
theorem apart_of_name {entry : String × String}
    (hname : carriageReturn ∉ bytes entry.1) :
    headerFormat.Apart (.mark endHeaderLine) (asRead entry) := by
  have hwrite : headerFormat.write (asRead entry) = bytes entry.1 ++ colon :: blank ::
      (bytes entry.2 ++ [carriageReturn, newline]) := by
    simp [headerFormat, Wire.pair, Wire.upTo, asRead]
  rw [Wire.Apart, hwrite]
  constructor
  · simp
  · intro rest
    have hmark : ¬ endHeaderLine <+: (bytes entry.1 ++ colon :: blank ::
        (bytes entry.2 ++ [carriageReturn, newline])) ++ rest := by
      cases hbytes : bytes entry.1 with
      | nil =>
          rw [endHeaderLine, List.nil_append, List.cons_append, List.cons_prefix_cons]
          exact fun hfirst => absurd hfirst.1 (by decide)
      | cons first others =>
          rw [hbytes] at hname
          rw [endHeaderLine, List.cons_append, List.cons_append, List.cons_prefix_cons]
          exact fun hfirst => hname (hfirst.1 ▸ List.mem_cons_self ..)
    simp only [Wire.mark, if_neg hmark]

/-- The headers of the connection stay on their lines as well. -/
theorem lines_withHeaders (dump : Json → Bytes) (tm : Tm) {response : Response}
    (hplain : ∀ entry ∈ response.headers, PlainHeader entry) :
    ∀ entry ∈ (withHeaders dump tm response).headers,
      (colon ∉ bytes entry.1 ∧ carriageReturn ∉ bytes entry.1) ∧ carriageReturn ∉ bytes entry.2 := by
  intro entry hmem
  have hcases : entry ∈ response.headers ∨
      entry = (headers.contentType, content_types.applicationJson) ∨
      entry = (headers.contentLength, toString (totalSize dump response)) ∨
      entry = (headers.date, getFormattedCurrentDate tm) := by
    simpa [withHeaders, Response.setHeader, or_assoc] using hmem
  have hname : ∀ name ∈ [headers.contentType, headers.contentLength, headers.date],
      colon ∉ bytes name ∧ carriageReturn ∉ bytes name := by decide
  rcases hcases with hold | rfl | rfl | rfl
  · exact ⟨(hplain entry hold).name, (hplain entry hold).value⟩
  · exact ⟨hname _ (by simp), by decide⟩
  · exact ⟨hname _ (by simp), carriageReturn_not_mem_toString _⟩
  · exact ⟨hname _ (by simp), carriageReturn_not_mem_date tm⟩

/-- The length header is the one the connection sets. -/
theorem contentLengthOf_messageOf (dump : Json → Bytes) (tm : Tm) {response : Response}
    (hplain : ∀ entry ∈ response.headers, PlainHeader entry) :
    contentLengthOf (messageOf dump tm response).headers = totalSize dump response := by
  have hearlier : (response.headers.map asRead).lookup (bytes headers.contentLength) = none := by
    rw [List.lookup_eq_none_iff]
    intro entry hmem
    obtain ⟨held, hheld, rfl⟩ := List.mem_map.mp hmem
    exact bne_iff_ne.mpr (Ne.symm (hplain held hheld).other)
  have hother : (bytes headers.contentLength == bytes headers.contentType) = false := by decide
  have hheaders : (messageOf dump tm response).headers = response.headers.map asRead ++
      [asRead (headers.contentType, content_types.applicationJson),
        asRead (headers.contentLength, toString (totalSize dump response)),
        asRead (headers.date, getFormattedCurrentDate tm)] := by
    simp [messageOf, withHeaders, Response.setHeader]
  rw [contentLengthOf, hheaders, List.lookup_append, hearlier, Option.none_or, asRead,
    List.lookup_cons, hother, asRead, List.lookup_cons_self]
  exact decimal_toString _

/-- Whatever follows it, the message that is written for a response reads back: its
status, the headers set before and those of the connection, and exactly its body. -/
theorem read_written (dump : Json → Bytes) (tm : Tm) {response : Response}
    (hplain : ∀ entry ∈ response.headers, PlainHeader entry) (rest : Bytes) :
    messageFormat.read (written dump tm response ++ rest) =
      some (messageOf dump tm response, rest) := by
  have hstatus : statusLine.Writable (messageOf dump tm response).status := by
    apply And.intro trivial
    show newline ∉ bytes (headerStatus (code response.status))
    cases response.status <;> decide
  have hlines : ∀ entry ∈ (messageOf dump tm response).headers,
      headerFormat.Writable entry ∧ headerFormat.Apart (.mark endHeaderLine) entry := by
    intro entry hmem
    obtain ⟨held, hheld, rfl⟩ := List.mem_map.mp hmem
    obtain ⟨hname, hvalue⟩ := lines_withHeaders dump tm hplain held hheld
    exact ⟨⟨hname.1, hvalue⟩, apart_of_name hname.2⟩
  have hbody : (messageOf dump tm response).body.length =
      contentLengthOf (messageOf dump tm response).headers :=
    (contentLengthOf_messageOf dump tm hplain).symm
  rw [written_eq]
  exact messageFormat.read_write rest ⟨⟨hstatus, hlines, trivial⟩, rfl, hbody⟩

end ObmcWebapp.Http
