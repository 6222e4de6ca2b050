import OsbClient.Basic
import OsbClient.Version
import OsbClient.Json.Value
import OsbClient.Json.Scanner
import OsbClient.Json.Grammar
import OsbClient.Json.Tokens
import OsbClient.Json.Valid
import OsbClient.Json.Encode
import OsbClient.Json.Decode
import OsbClient.Types
import OsbClient.Base64
import OsbClient.Url.Escape
import OsbClient.Url.Values
import OsbClient.Url.Parse
import OsbClient.Url.Path
import OsbClient.Client
import OsbClient.RotateBinding
import OsbClient.Outcomes
import OsbClient.Request
import OsbClient.NewClient
import OsbClient.Broker
