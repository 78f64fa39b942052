import CsiFirmware.Webserver.Handlers

/-!
# Login

Reference: `NetWorkLayerImp::getPassWord`.

The password of the user file and the password of the request are both read with `get<int>`, and
compared as `int`. The conversion identifies numbers: those that differ by a multiple of `2 ^ 32`,
those that differ after the decimal point, and the two booleans with 0 and 1. A login is sound
unless the request makes use of that.
-/

namespace CsiFirmware.Webserver

open CInt Json

/-- The user file holds a name that is a string and a password that is an `int`. -/
structure UserFile (b : Backend) (filename name : String) (password : Int) : Prop where
  file : ∃ content jsonData, b.openFile filename = some content ∧
    b.json.parseObject content = some jsonData ∧
    jsonData.member "username" = some (.string name) ∧
    ∃ j, jsonData.member "password" = some j ∧ j.number? = some (password : ℚ)
  password_inRange : InRange password

/-- The body is an object with this user name, and with a password such that `P`. -/
def Presents (b : Backend) (recvData name : String) (P : Json → Prop) : Prop :=
  ∃ http, b.json.parseObject recvData = some http ∧
    dataMember http "username" = some (.string name) ∧
    ∃ j, dataMember http "password" = some j ∧ P j

variable {b : Backend} {filename recvData name : String} {password : Int}

/-- Name and password are read if the one is a string and the other can be converted to `int`. -/
theorem credentials_eq_some_iff {j : Json} {k : Int} :
    credentials b j = some (name, k) ↔
      j.member "username" = some (.string name) ∧
        ∃ p, j.member "password" = some p ∧ p.getInt b.platform = some k := by
  constructor
  · intro h
    simp only [credentials, Option.bind_eq_bind, Option.bind_eq_some_iff] at h
    obtain ⟨u, huser, s, hstring, p, hpassword, i, hread, hpair⟩ := h
    obtain ⟨rfl, rfl⟩ := Prod.mk.inj (Option.some.inj hpair)
    obtain rfl := getString_eq_some_iff.mp hstring
    exact ⟨huser, p, hpassword, hread⟩
  · rintro ⟨huser, p, hpassword, hread⟩
    rw [credentials, huser, hpassword]
    simp [getString, hread]

/-- The password of the file is an `int`, so it is read as it stands. -/
theorem UserFile.credentials (h : UserFile b filename name password) :
    ∃ content jsonData, b.openFile filename = some content ∧
      b.json.parseObject content = some jsonData ∧
        credentials b jsonData = some (name, password) := by
  obtain ⟨content, jsonData, hopen, hparse, huser, j, hpassword, hnumber⟩ := h.file
  have hread : j.getInt b.platform = some password :=
    getInt_of_number? h.password_inRange hnumber
  exact ⟨content, jsonData, hopen, hparse, credentials_eq_some_iff.mpr ⟨huser, j, hpassword, hread⟩⟩

/-- The members of a request are those of its `data`. -/
theorem credentials_data_iff {http : Json} {k : Int} :
    (http.member "data").bind (Webserver.credentials b) = some (name, k) ↔
      dataMember http "username" = some (.string name) ∧
        ∃ p, dataMember http "password" = some p ∧ p.getInt b.platform = some k := by
  cases hdata : http.member "data" with
  | none => simp [dataMember, hdata]
  | some data => simp [dataMember, hdata, credentials_eq_some_iff]

/-- What a login comes down to: the name is the stored one, and the password is read as the stored
one. -/
theorem getPassWord_eq_200_iff (h : UserFile b filename name password) :
    (getPassWord b filename recvData).code = some 200 ↔
      Presents b recvData name fun j => j.getInt b.platform = some password := by
  obtain ⟨content, jsonData, hopen, hparse, hstored⟩ := h.credentials
  have hcode : (getPassWord b filename recvData).code = some 200 ↔
      passWordResult b filename recvData = some 200 := by
    cases hresult : passWordResult b filename recvData with
    | none => simp [getPassWord, hresult]
    | some c => simp [getPassWord, hresult]
  -- the file is fixed, so only the request is left to be read
  rw [hcode, Presents]
  simp only [passWordResult, hopen, hparse, hstored, Option.bind_eq_bind, Option.bind_some,
    Option.bind_eq_some_iff]
  constructor
  · rintro ⟨http, hbody, data, hdata, ⟨httpName, httpPassword⟩, hgiven, hequal⟩
    split at hequal
    next hsame =>
      obtain ⟨rfl, rfl⟩ := hsame
      exact ⟨http, hbody, credentials_data_iff.mp (by rw [hdata]; exact hgiven)⟩
    next => cases hequal
  · rintro ⟨http, hbody, hgiven⟩
    obtain ⟨data, hdata, hread⟩ := Option.bind_eq_some_iff.mp (credentials_data_iff.mpr hgiven)
    exact ⟨http, hbody, data, hdata, (name, password), hread, by simp⟩

/-- A login succeeds only with the stored name and a number that is the stored password, if and only
if the request is not one with the stored name and a password that is converted to the stored one
without being it. -/
theorem getPassWord_sound_iff (h : UserFile b filename name password) :
    ((getPassWord b filename recvData).code = some 200 →
        Presents b recvData name fun j => j.number? = some (password : ℚ)) ↔
      ¬ Presents b recvData name (Misread b.platform password) := by
  have hread (j : Json) : j.getInt b.platform = some password ↔
      j.number? = some (password : ℚ) ∨ j.Misread b.platform password :=
    getInt_eq_some_iff h.password_inRange
  rw [getPassWord_eq_200_iff h]
  constructor
  · -- a misread password logs in, and is not the stored one
    rintro hsound ⟨http, hbody, huser, j, hpassword, hmisread⟩
    have hlogin : Presents b recvData name fun j => j.getInt b.platform = some password :=
      ⟨http, hbody, huser, j, hpassword, (hread j).mpr (.inr hmisread)⟩
    obtain ⟨http', hbody', -, j', hpassword', hnumber⟩ := hsound hlogin
    obtain rfl : http = http' := Option.some.inj (hbody.symm.trans hbody')
    obtain rfl : j = j' := Option.some.inj (hpassword.symm.trans hpassword')
    exact hmisread.number?_ne hnumber
  · rintro hnone ⟨http, hbody, huser, j, hpassword, hint⟩
    rcases (hread j).mp hint with hnumber | hmisread
    · exact ⟨http, hbody, huser, j, hpassword, hnumber⟩
    · exact absurd ⟨http, hbody, huser, j, hpassword, hmisread⟩ hnone

/-! ## The user file of the device -/

/-- The user file that is shipped with the device. -/
private def userText : String := "\x7b\"username\":\"admin\",\"password\":123456\x7d"

/-- The text of a login with this password. -/
private def loginText (password : ℕ) : String :=
  "\x7b\"taskID\":0,\"data\":\x7b\"username\":\"admin\",\"password\":" ++ toString password ++
    "\x7d\x7d"

/-- What the library makes of that text. -/
private def loginJson (password : ℕ) : Json :=
  .object
    [("data", .object [("password", .numberUnsigned password), ("username", .string "admin")]),
      ("taskID", .numberUnsigned 0)]

/-- A server with the user file, and a library that knows it and two logins. -/
private def userBackend : Backend where
  json :=
    { parse := fun text =>
        if text = userText then
          some (.object [("password", .numberUnsigned 123456), ("username", .string "admin")])
        else if text = loginText 123456 then some (loginJson 123456)
        else if text = loginText 4295090752 then some (loginJson 4295090752)
        else none
      dump := fun _ => none
      dumpIndented := fun _ => none
      utf8 := fun _ => true }
  platform := { castOverflow := fun _ => 0, atoiOverflow := fun _ => 0 }
  openFile filename := if filename = "data/csi_user.json" then some userText else none
  devService := []
  serialService := []
  rttaskId := .yx

/-- The file holds a name and an `int`. -/
private theorem userFile_admin : UserFile userBackend "data/csi_user.json" "admin" 123456 where
  file := ⟨userText, _, rfl, rfl, rfl, _, rfl, by simp [number?]⟩
  password_inRange := by decide

/-- Nothing is converted in a login with the stored password. -/
theorem getPassWord_sound_admin :
    ((getPassWord userBackend "data/csi_user.json" (loginText 123456)).code = some 200 →
        Presents userBackend (loginText 123456) "admin" fun j =>
          j.number? = some ((123456 : Int) : ℚ)) ↔
      ¬ Presents userBackend (loginText 123456) "admin" (Misread userBackend.platform 123456) :=
  getPassWord_sound_iff userFile_admin

/-- A password that differs from the stored one by `2 ^ 32` is accepted. -/
theorem getPassWord_unsound :
    ¬ ∀ (b : Backend) (filename recvData name : String) (password : Int),
      UserFile b filename name password →
        (getPassWord b filename recvData).code = some 200 →
          Presents b recvData name fun j => j.number? = some (password : ℚ) := by
  intro h
  have hparse : userBackend.json.parseObject (loginText 4295090752) =
      some (loginJson 4295090752) := by rfl
  -- 4295090752 is 123456 + 2 ^ 32
  have haccept : (getPassWord userBackend "data/csi_user.json" (loginText 4295090752)).code =
      some 200 :=
    (getPassWord_eq_200_iff userFile_admin).mpr ⟨_, hparse, rfl, _, rfl, by decide⟩
  obtain ⟨http, hbody, -, j, hpassword, hnumber⟩ := h _ _ _ _ _ userFile_admin haccept
  obtain rfl : loginJson 4295090752 = http := Option.some.inj (hparse.symm.trans hbody)
  obtain rfl : Json.numberUnsigned 4295090752 = j := Option.some.inj hpassword
  norm_num [number?] at hnumber

end CsiFirmware.Webserver
