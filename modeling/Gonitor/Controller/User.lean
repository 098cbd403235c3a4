import Gonitor.Controller.Response

/-!
# The User Requests

The handlers of `controller/user.go` that change users or their tokens, with
`User.RegisterNewUser` and `UserToken.GenerateToken` of `package model`.  The queries that only
read users are left out.
-/

namespace Gonitor.Controller

open Gonitor.Model Gonitor.Server AtomicProgram

/-! ## Bodies -/

/-- The form of `EditUser`. -/
structure UserForm where
  username : String := ""
  password : String := ""
  confirmPassword : String := ""
  avatar : String := ""
  deriving DecidableEq

/-- The form of `AddUser`. -/
structure NewUserForm extends UserForm where
  loginAccount : String := ""
  deriving DecidableEq

/-! ## `package model` -/

/-- 24 hours -/
def tokenLifetime : Int := 24 * 60 * 60 * 1000000000

/-- `UserToken.GenerateToken`: the earlier tokens of the user are deleted first. -/
def generateToken (userId : Int) : Program (Except String String) := do
  match ← deleteUserTokens userId with
  | .error err => pure (.error err.text)
  | .ok _ => do
    let token ← randomString 32
    let instant ← now
    match ← createUserToken
        { toStamps := Base.zero, userID := userId, token := token,
          expiredAt := instant + tokenLifetime } with
    | .error err => pure (.error err.text)
    | .ok _ => pure (.ok token)

/-- `User.RegisterNewUser`: only an answer "no such record" lets the user be inserted. -/
def registerNewUser (u : User) : Program (Except String User) :=
  if u.loginAccount.utf8ByteSize < 6 then pure (.error "登录账号需要大于6个字符")
  else do
    match ← findUserByAccount u.loginAccount with
    | .error .recordNotFound => do
      match ← createUser u with
      | .error _ => pure (.error "注册失败, 新建用户失败")
      | .ok newUser => pure (.ok newUser)
    -- a user who is there, and any other error of the lookup
    | _ => pure (.error "已存在的用户名")

/-! ## Handlers -/

/-- `UserLogin` -/
def userLogin (ext : Externals) (clientIP loginAccount password : String) : Program Reply := do
  match ← findUserByAccount loginAccount with
  | .error _ => pure (.response ⟨2002, "错误的用户名或密码", .emptyObject⟩)
  | .ok user =>
    if ¬ ext.checkPassword password user.password then
      -- the text does not tell an unknown account from a wrong password
      pure (.response ⟨2002, "错误的用户名或密码", .emptyObject⟩)
    else do
      match ← generateToken user.id with
      | .error err => pure (.response ⟨2001, err, .emptyObject⟩)
      | .ok token => do
        addOperationLog user.id user.id "Login" clientIP
        pure (.response (success "登录成功" (.token token)))

/-- The audit entry of a request about a user. -/
def logUserOperation (caller : Caller) (u : User) (opType : String) : Program Unit :=
  addOperationLog caller.userId u.id opType
    ("User:" ++ u.username ++ "\nClient Ip:" ++ caller.clientIP)

/-- `AddUser` -/
def addUser (caller : Caller) (body : Except String NewUserForm) : Program Reply :=
  match body with
  | .error err => pure (.response (error ErrorCode.PARSE_PARAMS_ERROR ("parse fail:" ++ err)))
  | .ok form =>
    if form.password ≠ form.confirmPassword then
      pure (.response (error ErrorCode.PARSE_PARAMS_ERROR "Incorrect password twice"))
    else if form.password.utf8ByteSize < 6 then
      pure (.response (error ErrorCode.PARSE_PARAMS_ERROR "密码小于6位数"))
    else do
      match ← hashPassword form.password with
      | .error _ => pure (.response (error ErrorCode.DB_ERROR "Password hashing failed"))
      | .ok hashedPassword => do
        match ← registerNewUser
            { toStamps := Base.zero, username := form.username, loginAccount := form.loginAccount,
              password := hashedPassword, avatar := form.avatar } with
        | .error err => pure (.response (error ErrorCode.DB_ERROR ("Add user fail: " ++ err)))
        | .ok newUser => do
          logUserOperation caller newUser "AddUser"
          pure (.response (success "success" .nil))

/-- `EditUser`.  After a failing save the handler reads the text of an error that is nil, and
    panics. -/
def editUser (caller : Caller) (userId : Int) (body : Except String UserForm) : Program Reply :=
  match body with
  | .error err => pure (.response (error ErrorCode.PARSE_PARAMS_ERROR ("parse fail:" ++ err)))
  | .ok form => do
    match ← userInfo userId with
    | .error _ => pure (.response (error ErrorCode.NOT_FOUND "invalid user id"))
    | .ok userModel =>
      if form.password.utf8ByteSize < 6 then
        pure (.response (error ErrorCode.PARSE_PARAMS_ERROR "密码小于6位数"))
      else if form.password ≠ form.confirmPassword then
        pure (.response (error ErrorCode.PARSE_PARAMS_ERROR "Incorrect password twice"))
      else do
        match ← hashPassword form.password with
        | .error _ => pure (.response (error ErrorCode.DB_ERROR "Password hashing failed"))
        | .ok hashedPassword => do
          let userModel := { userModel with
            username := form.username, password := hashedPassword, avatar := form.avatar }
          match ← saveUser userModel with
          -- `err.Error()` on the nil `err` of the hashing
          | .error _ => pure .panicked
          | .ok _ => do
            logUserOperation caller userModel "EditUser"
            pure (.response (success "success" .nil))

/-- `DeleteUser`; `userModel` stays empty, also in the audit entry. -/
def deleteUser (caller : Caller) (userId : Int) : Program Reply := do
  match ← deleteUserRow userId with
  | .error _ => pure (.response (error ErrorCode.DB_ERROR "delete user fail!"))
  | .ok _ => do
    logUserOperation caller { toStamps := Base.zero } "DeleteUser"
    pure (.response (success "success" .nil))

end Gonitor.Controller
