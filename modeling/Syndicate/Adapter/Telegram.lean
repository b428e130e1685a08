import Syndicate.Adapter.Basic
import Syndicate.Json

/-! The adapter for channels of the Telegram Bot API. A post goes to the configured channel or to
the one that its options name; replies and deletions go to the configured one. A medium that is a
file in reach is uploaded in a form, any other is passed on as a link. -/

namespace Syndicate

structure Telegram where
  config : AdapterConfig
  botToken : Value
  chatId : String
  parseMode : Value
  disableNotification : Value
  timeout : Value

namespace Telegram

/-- The channel in text. It and the token must be there. -/
def checked (botToken chatId : Value) : Outcome String :=
  if !botToken.truthy then faulty (.settingMissing "bot_token")
  else if !chatId.truthy then faulty (.settingMissing "chat_id")
  else chatId.shown

/-- An adapter with its settings. -/
def make (config : AdapterConfig) (botToken chatId parseMode disableNotification timeout : Value) :
    Outcome Telegram := do
  let chat ← checked botToken chatId
  let _ ← botToken.shown
  pure ⟨config, botToken, chat, parseMode, disableNotification, timeout⟩

def id (t : Telegram) : Value := if t.config.id.truthy then t.config.id else .text "telegram"

def baseUrl (t : Telegram) : String := "https://api.telegram.org/bot" ++ t.botToken.display

def capabilities : List String :=
  ["audio", "delete", "document", "edit", "media", "photo", "reply", "video"]

def maxLength : Value := .int 4096

def maxCaption : Value := .int 1024

def source : String := "socials.telegram_client"

/-- Says that the platform refused a call. -/
def logRefusal (method : String) (status : Int) (body : String) : Act Site Unit :=
  Site.log source .warning
    ("Telegram " ++ method ++ " failed: status=" ++ toString status ++ " body=" ++ body)

/-- The result in a reply, an empty mapping when it counts as false. -/
def readReply (method : String) : Reply → Act Site Value
  | .unreachable reason => throw (.error (.publish (.requestFailed method reason)))
  | .broken f => throw (.fault f)
  | .response status body => do
    match Json.parse? body with
    | none => throw (.error (.publish (.replyUnreadable method status)))
    | some data =>
      let es ← Act.ofOutcome (data.entries "get")
      if (Entries.get es "ok").truthy then
        let result := Entries.get es "result"
        pure (if result.truthy then result else .map [])
      else
        logRefusal method status body
        throw (.error (.publish (.refused (Entries.get es "description"))))

/-- The time that a call may take, twice as long for an upload. -/
def timeoutFor (t : Telegram) : Payload → Outcome Value
  | .json _ => .ok t.timeout
  | .form .. => t.timeout.twice

/-- Calls a method of the platform. -/
def call (t : Telegram) (method : String) (payload : Payload) : Act Site Value := do
  let timeout ← Act.ofOutcome (t.timeoutFor payload)
  readReply method (← Site.send ⟨t.baseUrl ++ "/" ++ method, timeout, payload⟩)

/-- The channel of a post. -/
def chatOf (t : Telegram) (c : Content) : Outcome String :=
  if (c.option "channel").truthy then (c.option "channel").shown else .ok t.chatId

/-- The number of a private channel without its leading mark. -/
def bareChat (chat : String) : String :=
  if "-100".toList.isPrefixOf chat.toList then String.ofList (chat.toList.drop 4) else chat

def postUrl (chat messageId : String) : String :=
  match chat.toList with
  | '@' :: name => "https://t.me/" ++ String.ofList name ++ "/" ++ messageId
  | _ => "https://t.me/c/" ++ bareChat chat ++ "/" ++ messageId

/-- The post that a result names. -/
def refOf (t : Telegram) (chat : String) (result : Value) : Outcome PostRef := do
  let es ← result.entries "get"
  match Entries.get es "message_id" with
  | .null => fail (.publish .unidentified)
  | id => do
    let shown ← id.shown
    pure { platform := t.id, id := .text shown, url := .text (postUrl chat shown), raw := result }

/-- An entry of a payload. -/
def field (name : String) (v : Value) : Value × Value := (.text name, v)

/-- What every post carries. -/
def commonFields (t : Telegram) (chat : String) (c : Content) : Entries :=
  [field "chat_id" (.text chat),
   field "parse_mode" ((c.option? "parse_mode").getD t.parseMode),
   field "disable_notification" ((c.option? "disable_notification").getD t.disableNotification)] ++
  (if (c.option "thread_id").truthy then [field "message_thread_id" (c.option "thread_id")] else [])

/-- A text, empty when it counts as false. -/
def caption (v : Value) : Value := if v.truthy then v else .text ""

/-- A value in a form, where truth values are words. -/
def formValue : Value → Value
  | .bool b => .text (if b then "true" else "false")
  | v => v

/-- Whether a text has a scheme mark in it, which makes it a link. -/
def isLink : List Char → Bool
  | ':' :: '/' :: '/' :: _ => true
  | _ :: cs => isLink cs
  | [] => false

/-- How a medium is sent along with other fields. -/
def mediaPayload (files : Files) (name : String) (medium : Value) (fields : Entries) :
    Outcome Payload :=
  match medium with
  | .text path => do
    match ← if isLink path.toList then .ok none else files.plain? path with
    | some bytes =>
      pure (.form (fields.map fun e => (e.1, formValue e.2)) name (Files.lastName path)
        (Text.ofBytes bytes))
    | none => pure (.json (Entries.put fields (.text name) medium))
  | _ => faulty .wrongType

/-- The method that posts a medium of a kind. -/
def mediaMethod : String → String
  | "photo" => "sendPhoto"
  | "video" => "sendVideo"
  | "document" => "sendDocument"
  | _ => "sendAudio"

/-- What a text post carries. -/
def textFields (t : Telegram) (chat : String) (c : Content) : Entries :=
  t.commonFields chat c ++ field "text" c.text ::
    ((c.option? "disable_preview").toList.map fun v =>
      field "disable_web_page_preview" (.bool v.truthy))

def publish (t : Telegram) (c : Content) : Act Site PostRef := do
  let chat ← Act.ofOutcome (t.chatOf c)
  match c.media.find? fun m => m.2.truthy with
  | some (name, medium) =>
    Act.ofOutcome (checkLength maxCaption c.text)
    let fields := t.commonFields chat c ++ [field "caption" (caption c.text)]
    let payload ← Act.ofOutcome (mediaPayload (← get).files name medium fields)
    let result ← t.call (mediaMethod name) payload
    Act.ofOutcome (t.refOf chat result)
  | none =>
    Act.ofOutcome (checkLength maxLength c.text)
    let result ← t.call "sendMessage" (.json (t.textFields chat c))
    Act.ofOutcome (t.refOf chat result)

/-- What an edit carries before its text. -/
def editFields (t : Telegram) (chat : String) (c : Content) (messageId : Int) : Entries :=
  [field "chat_id" (.text chat), field "message_id" (.int messageId),
   field "parse_mode" ((c.option? "parse_mode").getD t.parseMode)]

def update (t : Telegram) (postId : Value) (c : Content) : Act Site PostRef := do
  let chat ← Act.ofOutcome (t.chatOf c)
  let fields := t.editFields chat c (← Act.ofOutcome postId.toInt)
  if c.hasMedia then
    Act.ofOutcome (checkLength maxCaption c.text)
    let _ ← t.call "editMessageCaption" (.json (fields ++ [field "caption" (caption c.text)]))
  else
    Act.ofOutcome (checkLength maxLength c.text)
    let _ ← t.call "editMessageText" (.json (fields ++ [field "text" c.text]))
  let shown ← Act.ofOutcome postId.shown
  pure { platform := t.id, id := .text shown, url := .text (postUrl chat shown) }

def delete (t : Telegram) (postId : Value) : Act Site Value := do
  let n ← Act.ofOutcome postId.toInt
  let _ ← t.call "deleteMessage"
    (.json [field "chat_id" (.text t.chatId), field "message_id" (.int n)])
  pure (.bool true)

def reply (t : Telegram) (target : Target) (text : Value) : Act Site PostRef := do
  Act.ofOutcome (checkLength maxLength text)
  let n ← Act.ofOutcome (do (← target.id).toInt)
  let result ← t.call "sendMessage" (.json
    [field "chat_id" (.text t.chatId), field "text" text, field "reply_to_message_id" (.int n),
     field "parse_mode" t.parseMode])
  Act.ofOutcome (t.refOf t.chatId result)

/-- Asks the platform who the bot is. -/
def verify (t : Telegram) : Act Site Value := do
  let me ← t.call "getMe" (.json [])
  let es ← Act.ofOutcome (me.entries "get")
  pure (.bool (Entries.get es "id").truthy)

end Telegram

end Syndicate
