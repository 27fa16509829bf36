import ByeByeVpn.Analysis.CtCheck
import ByeByeVpn.Core.Utils
import ByeByeVpn.Lib.HttpMessage

/-!
# The HTTP client (`network/http_client.cpp`)

`http_get` from the point where the request has been sent: it reads until the
connection is closed or too much has come, and takes the reply apart. What the
socket or the TLS layer delivers at each turn is a parameter.
-/

namespace ByeByeVpn

open Search

def kMaxResponseSize : Nat := 1024 * 1024

/-- One turn of the loop that reads. A plain connection never fails: its loop
takes every error for the end. -/
inductive ReadTurn
  | data (got : Bytes)
  | again
  | closed
  | failed (err : Bytes)

/-- The bytes read, or the error; nothing while the loop goes on. -/
def readResponse : Bytes → List ReadTurn → Option (Except Bytes Bytes)
  | _, [] => none
  | resp, .data got :: turns =>
    let resp := resp ++ got
    if kMaxResponseSize < resp.length then some (.ok resp) else readResponse resp turns
  | resp, .again :: turns => readResponse resp turns
  | resp, .closed :: _ => some (.ok resp)
  | _, .failed err :: _ => some (.error err)

def httpStatus (headers : Bytes) : Int :=
  match find [chr ' '] headers with
  | none => 0
  | some space1 =>
    match findFrom [chr ' '] headers (space1 + 1) with
    | none => 0
    | some space2 =>
      let statusStr := (headers.drop (space1 + 1)).take (space2 - space1 - 1)
      if statusStr.length == 3 && statusStr.all isdigit then
        let val := strtol 10 statusStr
        if val.converted && val.rest.headD 0 == 0 then val.value else 0
      else 0

/-- The loop over the chunks, on the part of the body from `pos` on. -/
def decodeChunks (rest decoded : Bytes) : Bytes :=
  match _h : find Http.crlf rest with
  | none => decoded
  | some nl =>
    let len := strtol 16 (rest.take nl)
    if !len.converted || len.value < 0 then decoded
    else if len.value = 0 then decoded
    else
      let n := len.value.toNat
      if (rest.drop (nl + 2)).length < n then decoded
      else decodeChunks (rest.drop (nl + 2 + n + 2)) (decoded ++ (rest.drop (nl + 2)).take n)
termination_by rest.length
decreasing_by
  have := length_of_find _h
  simp only [Http.crlf, List.length_cons, List.length_nil, List.length_drop] at this ⊢
  omega

def transferChunked : Bytes := ascii "transfer-encoding: chunked"

def parseResponse (resp : Bytes) : HttpResp :=
  match find (Http.crlf ++ Http.crlf) resp with
  | none => { err := ascii "no header" }
  | some headerEnd =>
    let headers := resp.take headerEnd
    let body := resp.drop (headerEnd + 4)
    { status := httpStatus headers
      body :=
        if contains (tolowerS headers) transferChunked then decodeChunks body [] else body }

def httpGet (turns : List ReadTurn) : Option HttpResp :=
  (readResponse [] turns).map fun
    | .ok resp => parseResponse resp
    | .error err => { err }

end ByeByeVpn
