import Weiterleitung.Authentication.Password
import Weiterleitung.Delivery.Attempts
import Weiterleitung.Delivery.Files
import Weiterleitung.Delivery.Relay
import Weiterleitung.Delivery.Release
import Weiterleitung.Delivery.Restart
import Weiterleitung.Delivery.Wired
import Weiterleitung.Routes.Flash
import Weiterleitung.Routes.Login
import Weiterleitung.Routes.Toggle
import Weiterleitung.Smtp.Argument
import Weiterleitung.Smtp.Clean
import Weiterleitung.Smtp.Client
import Weiterleitung.Smtp.Conversation
import Weiterleitung.Smtp.Counted
import Weiterleitung.Smtp.Forgets
import Weiterleitung.Smtp.InStep
import Weiterleitung.Smtp.Quoted
import Weiterleitung.Smtp.ReverseAlias
import Weiterleitung.Smtp.SameAddress
import Weiterleitung.Smtp.Silent
import Weiterleitung.Smtp.Steady
import Weiterleitung.Smtp.Stranger
import Weiterleitung.Smtp.Stripped
import Weiterleitung.Smtp.Through
import Weiterleitung.Smtp.Unforged
import Weiterleitung.Store.Mailboxes
import Weiterleitung.Store.Overview
